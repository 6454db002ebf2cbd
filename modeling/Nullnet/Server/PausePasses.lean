import Nullnet.Server.PauseTasks

/-! # What a pass keeps

During a pass the replicas of a container are visited one after the other. What is known of a container
in between (`PassOk`) depends on where the pass is: on which replicas are still ahead, and on the one
that is being suspended. What happens beside the pass keeps it as long as it leaves the outgoing work of
a container alone that the pass has dealt with (`PassOk.transfer`). -/

namespace Nullnet.Server

/-! ## Where a pass is -/

/-- Whether the replica is suspended is still open in the pass. -/
def PausePass.undecided (p : PausePass) (r : PausableReplica) : Bool :=
  decide (r.cell ∈ p.ahead) || decide (p.current = some (r.cell, .egress))

def PausePass.Committed (p : PausePass) (r : PausableReplica) : Prop :=
  p.current = some (r.cell, .sending) ∨ p.current = some (r.cell, .marking)

namespace Pauses

/-- The pass has suspended the container before, or has come to a replica of it and has not marked
it. -/
def dealtWith (s : Pauses) (p : PausePass) (id : ReplicaId) : Bool :=
  decide (s.lastCommand id = some .suspend) ||
    s.replicas.any fun r => decide (r.id = id) && !r.suspended && !p.undecided r

/-! ## The invariant of a pass -/

variable {s s' : Pauses} {p p' : PausePass} {r : PausableReplica}

/-- The container of the replica may be paused in this pass, and the replica is not marked. -/
structure Awake (s : Pauses) (p : PausePass) (r : PausableReplica) : Prop where
  mem : r ∈ s.replicas
  free : r.id ∉ p.blocked
  docker : r.id.docker.isSome = true
  awake : r.suspended = false

/-- In a pass the replicas that may not be paused are not touched. Of a container that is suspended, or
is being suspended, the replicas that are not marked are still ahead, and nothing keeps the pass from
marking them. If a replica was left because of outgoing work, then the work is still there for the next
one. -/
structure PassOk (s : Pauses) (p : PausePass) : Prop where
  forbids : ∀ r ∈ s.replicas, s.forbids r = true → r.id ∈ p.blocked
  blocked : ∀ r ∈ s.replicas, r.id ∈ p.blocked → r.id.docker.isSome = true → r.suspended = false →
    s.lastCommand r.id ≠ some .suspend
  current : ∀ c stage, p.current = some (c, stage) → c ∉ p.ahead ∧
    ∃ r, Awake s p r ∧ r.cell = c ∧ (stage = .egress → s.hasSession r.id = false)
  behind : ∀ r, Awake s p r → (s.lastCommand r.id = some .suspend ∨
      ∃ r', Awake s p r' ∧ r'.id = r.id ∧ p.Committed r') →
    p.Committed r ∨ p.undecided r = true ∧ s.hasOutgoingWork r.id = false
  left : ∀ r r', Awake s p r → Awake s p r' → r'.id = r.id → p.undecided r = false →
    ¬p.Committed r → p.undecided r' = true → s.hasOutgoingWork r.id = true

theorem undecided_eq_false :
    p.undecided r = false ↔ r.cell ∉ p.ahead ∧ p.current ≠ some (r.cell, .egress) := by
  simp [PausePass.undecided]

theorem undecided_eq_true :
    p.undecided r = true ↔ r.cell ∈ p.ahead ∨ p.current = some (r.cell, .egress) := by
  simp [PausePass.undecided]

theorem PassOk.undecided_of_committed (h : PassOk s p) (hc : p.Committed r) :
    p.undecided r = false := by
  refine undecided_eq_false.mpr ?_
  rcases hc with hc | hc
  · exact ⟨(h.current _ _ hc).1, by simp [hc]⟩
  · exact ⟨(h.current _ _ hc).1, by simp [hc]⟩

theorem dealtWith_of_last {id : ReplicaId} (h : s.lastCommand id = some .suspend) :
    s.dealtWith p id = true := by
  simp [dealtWith, h]

theorem dealtWith_of_awake (h : Awake s p r) (hu : p.undecided r = false) :
    s.dealtWith p r.id = true := by
  refine Bool.or_eq_true_iff.mpr (.inr (List.any_eq_true.mpr ⟨r, h.mem, ?_⟩))
  simp [h.awake, hu]

theorem PassOk.transfer (h : PassOk s p)
    (hforbids : ∀ r ∈ s'.replicas, s'.forbids r = true → r.id ∈ p.blocked)
    (hblocked : ∀ r ∈ s'.replicas, r.id ∈ p.blocked → r.id.docker.isSome = true →
      r.suspended = false → s'.lastCommand r.id ≠ some .suspend)
    (hawake : ∀ r, Awake s' p r ↔ Awake s p r)
    (hlast : ∀ r, Awake s p r → s'.lastCommand r.id = some .suspend →
      s.lastCommand r.id = some .suspend)
    (hsession : ∀ id, s'.hasSession id = true → s.hasSession id = true)
    (hwork : ∀ r, Awake s p r → p.undecided r = true → s.dealtWith p r.id = true →
      s'.hasOutgoingWork r.id = s.hasOutgoingWork r.id) : PassOk s' p := by
  refine ⟨hforbids, hblocked, fun c stage hc => ?_, fun r hr hdealt => ?_,
    fun r r' hr hr' hid hu hnc hu' => ?_⟩
  · obtain ⟨hnot, r, hr, hcell, hs⟩ := h.current c stage hc
    refine ⟨hnot, r, (hawake r).mpr hr, hcell, fun he => Bool.eq_false_of_not_eq_true fun hses => ?_⟩
    exact Bool.false_ne_true ((hs he).symm.trans (hsession _ hses))
  · have hr := (hawake r).mp hr
    have hd : s.lastCommand r.id = some .suspend ∨
        ∃ r', Awake s p r' ∧ r'.id = r.id ∧ p.Committed r' := by
      rcases hdealt with hl | ⟨r', hr', hid, hc⟩
      · exact .inl (hlast r hr hl)
      · exact .inr ⟨r', (hawake r').mp hr', hid, hc⟩
    rcases h.behind r hr hd with hc | ⟨hu, hw⟩
    · exact .inl hc
    · refine .inr ⟨hu, (hwork r hr hu ?_).trans hw⟩
      rcases hd with hl | ⟨r', hr', hid, hc⟩
      · exact dealtWith_of_last hl
      · exact hid ▸ dealtWith_of_awake hr' (h.undecided_of_committed hc)
  · have hr := (hawake r).mp hr
    have hr' := (hawake r').mp hr'
    have hsame := hwork r' hr' hu' (hid ▸ dealtWith_of_awake hr hu)
    rw [hid] at hsame
    exact hsame.trans (h.left r r' hr hr' hid hu hnc hu')

/-! ## The steps of a pass -/

theorem Awake.congr (h : Awake s p r) (hr : s'.replicas = s.replicas)
    (hb : p'.blocked = p.blocked) : Awake s' p' r :=
  ⟨hr ▸ h.mem, hb ▸ h.free, h.docker, h.awake⟩

theorem passOk_start (h : ∀ r ∈ s.replicas, r.id.docker.isSome = true → r.suspended = false →
      s.lastCommand r.id = some .suspend → r.id ∉ s.blocked ∧ s.hasOutgoingWork r.id = false)
    (hp : s.startPass.pass = some p) : PassOk s.startPass p := by
  cases hp
  have hahead : ∀ r ∈ s.replicas, r.cell ∈ s.replicas.map (·.cell) := fun r hr =>
    List.mem_map_of_mem hr
  refine ⟨fun r hr hf => ?_, fun r hr hb hd hs hl => ?_, fun _ _ hc => ?_, fun r hr hdealt => ?_,
    fun r r' hr _ _ hu => ?_⟩
  · exact List.mem_map.mpr ⟨r, List.mem_filter.mpr ⟨hr, hf⟩, rfl⟩
  · exact absurd hb (h r hr hd hs hl).1
  · cases hc
  · rcases hdealt with hl | ⟨_, _, _, hc⟩
    · exact .inr ⟨undecided_eq_true.mpr (.inl (hahead r hr.mem)), (h r hr.mem hr.docker hr.awake hl).2⟩
    · rcases hc with hc | hc <;> cases hc
  · exact absurd (hahead r hr.mem) (undecided_eq_false.mp hu).1

/-- The pass goes on, and a replica may be decided: it has outgoing work, or is committed. -/
theorem PassOk.advance (h : PassOk s p) (hblocked : p'.blocked = p.blocked)
    (hnone : ∀ x, ¬p.Committed x)
    (hcurrent : ∀ c stage, p'.current = some (c, stage) → c ∉ p'.ahead ∧
      ∃ r, Awake s p r ∧ r.cell = c ∧ (stage = .egress → s.hasSession r.id = false))
    (hund : ∀ x, p'.undecided x = true → p.undecided x = true)
    (hdecided : ∀ x, Awake s p x → p.undecided x = true → p'.undecided x = false →
      p'.Committed x ∨ s.hasOutgoingWork x.id = true)
    (hcommitted : ∀ x y, Awake s p x → Awake s p y → y.id = x.id → p'.Committed y →
      ¬p'.Committed x → p.undecided x = true ∧ s.hasOutgoingWork x.id = false) :
    PassOk { s with pass := some p' } p' := by
  have hsame : ∀ x, Awake { s with pass := some p' } p' x → Awake s p x := fun x hx =>
    hx.congr rfl hblocked.symm
  refine ⟨fun x hx hf => hblocked ▸ h.forbids x hx hf, fun x hx hb => h.blocked x hx (hblocked ▸ hb),
    fun c stage hc => ?_, fun x hx hdealt => ?_, fun x x' hx hx' hid hu hnc hu' => ?_⟩
  · obtain ⟨hnot, r, hr, hcell, hs⟩ := hcurrent c stage hc
    exact ⟨hnot, r, hr.congr rfl hblocked, hcell, hs⟩
  · refine or_iff_not_imp_left.mpr fun hnc => ?_
    obtain ⟨hu, hw⟩ : p.undecided x = true ∧ s.hasOutgoingWork x.id = false := by
      rcases hdealt with hl | ⟨y, hy, hid, hc⟩
      · exact (h.behind x (hsame x hx) (.inl hl)).resolve_left (hnone x)
      · exact hcommitted x y (hsame x hx) (hsame y hy) hid hc hnc
    refine ⟨Bool.eq_true_of_not_eq_false fun hu' => ?_, hw⟩
    exact Bool.false_ne_true (hw.symm.trans ((hdecided x (hsame x hx) hu hu').resolve_left hnc))
  · cases hux : p.undecided x with
    | true => exact (hdecided x (hsame x hx) hux hu).resolve_left hnc
    | false => exact h.left x x' (hsame x hx) (hsame x' hx') hid hux (hnone x) (hund x' hu')

/-- The pass leaves a replica: it is marked, or may not be paused, or has outgoing work. -/
theorem PassOk.leave (h : PassOk s p) (ht : TasksOk s) (hr : r ∈ s.replicas)
    (hcur : p.current = none ∨ p.current = some (r.cell, .egress))
    (hwork : Awake s p r → s.hasOutgoingWork r.id = true) (hblocked : p'.blocked = p.blocked)
    (hcur' : p'.current = none) (hahead : ∀ c, c ∈ p'.ahead ↔ c ∈ p.ahead ∧ c ≠ r.cell) :
    PassOk { s with pass := some p' } p' := by
  have hnone' : ∀ x, ¬p'.Committed x := by
    rintro x (hc | hc) <;> simp [hcur'] at hc
  refine h.advance hblocked ?_ (fun c stage hc => nomatch hcur'.symm.trans hc) (fun x hu => ?_)
    (fun x hx hu hu' => .inr ?_) fun x y _ _ _ hc => absurd hc (hnone' y)
  · rintro x (hc | hc) <;> rcases hcur with hn | hn <;> simp [hn] at hc
  · rw [undecided_eq_true, hcur', hahead] at hu
    exact undecided_eq_true.mpr (.inl (hu.resolve_right nofun).1)
  · have hc : x.cell = r.cell := by
      rcases undecided_eq_true.mp hu with ha | hc
      · by_contra hne
        exact (undecided_eq_false.mp hu').1 ((hahead _).mpr ⟨ha, hne⟩)
      · rcases hcur with hn | hn
        · cases hn.symm.trans hc
        · exact congrArg Prod.fst (Option.some.inj (hc.symm.trans hn))
    have hxr := ht.eq_of_cell hx.mem hr hc
    exact hxr ▸ hwork (hxr ▸ hx)

theorem PassOk.resume (h : PassOk s p) (ht : TasksOk s) {cell : ℕ}
    (hb : ∀ r ∈ s.replicas, r.cell = cell → r.id ∈ p.blocked) : PassOk (s.resume cell) p := by
  rcases resume_cases ht cell with heq | ⟨r0, hr0, rfl, hsusp, -, heq⟩
  · rw [heq]
    exact h
  rw [heq]
  have hrep : ∀ r', r' ∈ (s.modify r0.cell fun r => { r with resuming := true }).replicas ↔
      r' = { r0 with resuming := true } ∨ r' ∈ s.replicas ∧ r'.cell ≠ r0.cell := by
    intro r'
    rw [mem_modify]
    constructor
    · rintro ⟨r, hr, rfl⟩
      split_ifs with hc
      · exact .inl (by rw [ht.eq_of_cell hr hr0 hc])
      · exact .inr ⟨hr, hc⟩
    · rintro (rfl | ⟨hr, hc⟩)
      · exact ⟨r0, hr0, if_pos rfl⟩
      · exact ⟨r', hr, if_neg hc⟩
  refine h.transfer (fun r' hr' hf => ?_) (fun r' hr' hbl hd hs => ?_)
    (fun r' => ⟨fun ha => ?_, fun ha => ?_⟩) (fun _ _ hl => hl) (fun _ hs => hs) fun _ _ _ _ => rfl
  · rcases (hrep r').mp hr' with rfl | ⟨hr, -⟩
    · exact hb r0 hr0 rfl
    · exact h.forbids r' hr hf
  · rcases (hrep r').mp hr' with rfl | ⟨hr, -⟩
    · exact absurd (hsusp.symm.trans hs) (by simp)
    · exact h.blocked r' hr hbl hd hs
  · rcases (hrep r').mp ha.mem with rfl | ⟨hr, -⟩
    · exact absurd (hb r0 hr0 rfl) ha.free
    · exact ⟨hr, ha.free, ha.docker, ha.awake⟩
  · refine ⟨(hrep r').mpr (.inr ⟨ha.mem, fun hc => ?_⟩), ha.free, ha.docker, ha.awake⟩
    exact absurd (hb r' ha.mem hc) ha.free

theorem PassOk.enter (h : PassOk s p) (hr : Awake s p r)
    (hcur : p.current = none) (hin : r.cell ∈ p.ahead) (hs : s.hasSession r.id = false)
    (hblocked : p'.blocked = p.blocked) (hcur' : p'.current = some (r.cell, .egress))
    (hahead : ∀ c, c ∈ p'.ahead ↔ c ∈ p.ahead ∧ c ≠ r.cell) :
    PassOk { s with pass := some p' } p' := by
  have hund : ∀ x, p'.undecided x = true ↔ p.undecided x = true := by
    intro x
    rw [undecided_eq_true, undecided_eq_true, hcur', hcur, hahead]
    by_cases hc : x.cell = r.cell
    · simp [hc, hin]
    · simp [hc, Ne.symm hc]
  refine h.advance hblocked ?_ (fun c stage hc => ?_) (fun x => (hund x).mp)
    (fun x _ hu hu' => absurd ((hund x).mpr hu) (by simp [hu'])) fun x y _ _ _ hc => ?_
  · rintro x (hc | hc) <;> simp [hcur] at hc
  · cases hcur'.symm.trans hc
    exact ⟨fun hm => ((hahead _).mp hm).2 rfl, r, hr, rfl, fun _ => hs⟩
  · rcases hc with hc | hc <;> simp [hcur'] at hc

theorem PassOk.commit (h : PassOk s p) (ht : TasksOk s) (hr : Awake s p r)
    (hcur : p.current = some (r.cell, .egress)) (hw : s.hasOutgoingWork r.id = false)
    (hblocked : p'.blocked = p.blocked) (hcur' : p'.current = some (r.cell, .sending))
    (hahead : p'.ahead = p.ahead) : PassOk { s with pass := some p' } p' := by
  have hnot := (h.current _ _ hcur).1
  have hund : ∀ x, p'.undecided x = true ↔ p.undecided x = true ∧ x.cell ≠ r.cell := by
    intro x
    rw [undecided_eq_true, undecided_eq_true, hcur', hcur, hahead]
    by_cases hc : x.cell = r.cell
    · simp [hc, hnot]
    · simp [hc, Ne.symm hc]
  have hnone : ∀ x, ¬p.Committed x := by
    rintro x (hc | hc) <;> simp [hcur] at hc
  have hcommitted : ∀ x, p'.Committed x ↔ x.cell = r.cell := by
    intro x
    simp [PausePass.Committed, hcur', eq_comm]
  refine h.advance hblocked hnone (fun c stage hc => ?_) (fun x hu => ((hund x).mp hu).1)
    (fun x _ hu hu' => .inl ?_) fun x y hx hy hid hcy _ => ?_
  · cases hcur'.symm.trans hc
    exact ⟨hahead ▸ hnot, r, hr, rfl, nofun⟩
  · by_contra hc
    exact absurd ((hund x).mpr ⟨hu, mt (hcommitted x).mpr hc⟩) (by simp [hu'])
  · -- The replica that is suspended is an alias of this one, which is ahead: there is no work.
    rw [ht.eq_of_cell hy.mem hr.mem ((hcommitted y).mp hcy)] at hid
    have hwx : s.hasOutgoingWork x.id = false := hid ▸ hw
    refine ⟨?_, hwx⟩
    by_contra hux
    have hwork := h.left x r hx hr hid (Bool.eq_false_of_not_eq_true hux) (hnone x)
      (undecided_eq_true.mpr (.inr hcur))
    exact Bool.false_ne_true (hwx.symm.trans hwork)

theorem PassOk.send (h : PassOk s p) (hr : Awake s p r)
    (hcur : p.current = some (r.cell, .sending)) (hblocked : p'.blocked = p.blocked)
    (hcur' : p'.current = some (r.cell, .marking)) (hahead : p'.ahead = p.ahead)
    {sent : List (PauseCommand × ReplicaId)} (hsent : ∀ id, id ≠ r.id →
      { s with sent := sent, pass := some p' }.lastCommand id = s.lastCommand id) :
    PassOk { s with sent := sent, pass := some p' } p' := by
  have hsame : ∀ x, Awake { s with sent := sent, pass := some p' } p' x → Awake s p x := fun x hx =>
    hx.congr rfl hblocked.symm
  have hund : ∀ x, p'.undecided x = p.undecided x := by
    intro x
    simp [PausePass.undecided, hcur, hcur', hahead]
  have hcommitted : ∀ x, p'.Committed x ↔ p.Committed x := by
    intro x
    simp [PausePass.Committed, hcur, hcur']
  have hr' : p.Committed r := .inl hcur
  refine ⟨fun x hx hf => hblocked ▸ h.forbids x hx hf, fun x hx hb hd hs => ?_, fun c stage hc => ?_,
    fun x hx hdealt => ?_, fun x x' hx hx' hid hu hnc hu' => ?_⟩
  · rw [hsent _ fun he => hr.free (he ▸ hblocked ▸ hb)]
    exact h.blocked x hx (hblocked ▸ hb) hd hs
  · cases hcur'.symm.trans hc
    exact ⟨hahead ▸ (h.current _ _ hcur).1, r, hr.congr rfl hblocked, rfl, nofun⟩
  · rw [hcommitted, hund]
    refine h.behind x (hsame x hx) ?_
    by_cases hid : x.id = r.id
    · exact .inr ⟨r, hr, hid.symm, hr'⟩
    · rw [hsent _ hid] at hdealt
      refine hdealt.imp_right fun ⟨y, hy, hyid, hc⟩ => ⟨y, hsame y hy, hyid, (hcommitted y).mp hc⟩
  · rw [hund] at hu hu'
    rw [hcommitted] at hnc
    exact h.left x x' (hsame x hx) (hsame x' hx') hid hu hnc hu'

theorem PassOk.mark (h : PassOk s p) (hcur : p.current = some (r.cell, .marking))
    (hblocked : p'.blocked = p.blocked) (hcur' : p'.current = none) (hahead : p'.ahead = p.ahead) :
    PassOk { s.modify r.cell fun r => { r with suspended := true } with pass := some p' } p' := by
  have hrep : ∀ x' ∈ (s.modify r.cell fun r => { r with suspended := true }).replicas,
      (∃ x ∈ s.replicas, x' = { x with suspended := true }) ∨
        x' ∈ s.replicas ∧ x'.cell ≠ r.cell := by
    intro x' hx'
    obtain ⟨x, hx, rfl⟩ := mem_modify.mp hx'
    split_ifs with hc
    · exact .inl ⟨x, hx, rfl⟩
    · exact .inr ⟨hx, hc⟩
  have hsame : ∀ x, Awake { s.modify r.cell fun r => { r with suspended := true } with
      pass := some p' } p' x → Awake s p x ∧ x.cell ≠ r.cell := by
    intro x hx
    rcases hrep x hx.mem with ⟨y, -, rfl⟩ | ⟨hmem, hc⟩
    · exact absurd hx.awake (by simp)
    · exact ⟨⟨hmem, hblocked ▸ hx.free, hx.docker, hx.awake⟩, hc⟩
  have hund : ∀ x, p'.undecided x = p.undecided x := by
    intro x
    simp [PausePass.undecided, hcur, hcur', hahead]
  have hcommitted : ∀ x, p.Committed x → x.cell = r.cell := by
    intro x hc
    simpa [PausePass.Committed, hcur, eq_comm] using hc
  have hnone : ∀ x, ¬p'.Committed x := by
    rintro x (hc | hc) <;> simp [hcur'] at hc
  refine ⟨fun x hx hf => ?_, fun x hx hb hd hs => ?_, fun c stage hc => ?_, fun x hx hdealt => ?_,
    fun x x' hx hx' hid hu _ hu' => ?_⟩
  · rw [hblocked]
    rcases hrep x hx with ⟨y, hy, rfl⟩ | ⟨hmem, -⟩
    · exact h.forbids y hy hf
    · exact h.forbids x hmem hf
  · rcases hrep x hx with ⟨y, -, rfl⟩ | ⟨hmem, -⟩
    · cases hs
    · exact h.blocked x hmem (hblocked ▸ hb) hd hs
  · cases hcur'.symm.trans hc
  · have hl := hdealt.resolve_right fun ⟨y, _, _, hc⟩ => hnone y hc
    obtain ⟨hx, hne⟩ := hsame x hx
    obtain ⟨hu, hw⟩ := (h.behind x hx (.inl hl)).resolve_left fun hc => hne (hcommitted x hc)
    exact .inr ⟨(hund x).trans hu, hw⟩
  · obtain ⟨hx, hne⟩ := hsame x hx
    exact h.left x x' hx (hsame x' hx').1 hid ((hund x).symm.trans hu)
      (fun hc => hne (hcommitted x hc)) ((hund x').symm.trans hu')

end Pauses

end Nullnet.Server
