import Nullnet.Client.Handlers
import Nullnet.Lib.Lanes

/-! # The order of control messages

A client starts a job for each control message, and the jobs run in any order, except that those about
one VXLAN wait for each other. The server takes the acknowledgement of a teardown as the end of the
network, and that of a resume as the start of a container. Nothing makes the teardown of a VLAN, or a
resume, wait for the earlier messages. -/

namespace Nullnet.Client

open Nullnet.Lib Lanes
open Nullnet.Server (Ipv4Addr Net)

abbrev Jobs : Type := Lanes Host Message HostCall HostReply Bool ℕ

abbrev JobStep : Type := LaneAction Message Outcome

variable (P : Parsers) {q q' : Message}

def Jobs.step (s : Jobs) (a : JobStep) : Option Jobs := Lanes.step (client P) lane s a

def Jobs.new (host : Host) : Jobs := Lanes.new host 0

def HostCall.isAck : HostCall → Bool
  | .ack _ => true
  | _ => false

def IsAck (c : HostCall) : Prop := c.isAck

/-! ## Teardowns -/

/-- The second message is a teardown of the VLAN that the first one sets up. -/
def UndoesVlan : Message → Message → Prop
  | .vlanSetup m, .vlanTeardown vlanId _ => m.vlanId = vlanId
  | _, _ => False

def UndoesVxlan : Message → Message → Prop
  | .vxlanSetup m, .vxlanTeardown t => m.vxlanId = t.vxlanId
  | _, _ => False

/-- The second message is a teardown of the network that the first one sets up. -/
def Undoes (q q' : Message) : Prop := UndoesVlan q q' ∨ UndoesVxlan q q'

theorem lane_of_undoesVxlan (h : UndoesVxlan q q') :
    lane q = lane q' ∧ (lane q').isSome := by
  cases q <;> cases q' <;> first | exact h.elim | skip
  exact ⟨congrArg some h, rfl⟩

variable {P} {s s' : Jobs} {a : JobStep}

/-- **A teardown is acknowledged after all earlier setups of its network have ended**, in every run in
which the teardowns of VLANs begin after the setups that arrived before them. -/
theorem teardown_acked_last (P : Parsers) (host : Host)
    (h : Reach (Jobs.step P) (BeginsAfter UndoesVlan) (Jobs.new host) s) : s.Settled Undoes IsAck := by
  have key : s.Inv lane ∧ s.Settled UndoesVlan (fun _ => True) ∧ s.Settled UndoesVxlan (fun _ => True) := by
    refine h.invariant (fun s => s.Inv lane ∧ s.Settled UndoesVlan (fun _ => True) ∧
      s.Settled UndoesVxlan (fun _ => True)) ⟨inv_new host 0, settled_new host 0, settled_new host 0⟩ ?_
    rintro s a s' ⟨hinv, hvlan, hvxlan⟩ hb hs
    exact ⟨hinv.step hs, hvlan.step hinv (hvlan.awaits hb) hs,
      hvxlan.step hinv (hinv.awaits hs fun _ _ => lane_of_undoesVxlan) hs⟩
  intro e he _ job hjob i hi job' hjob' hrel
  exact hrel.elim (key.2.1 e he trivial job hjob i hi job' hjob') (key.2.2 e he trivial job hjob i hi job' hjob')

section Script

/-- A peer's address, and what every text stands for. -/
def peerIp : Ipv4Addr := 0x0A000001#32

def Parsers.constant : Parsers := ⟨fun _ => some peerIp, fun _ => some ⟨peerIp, 30⟩⟩

def vlan105 : VlanSetup :=
  { msgId := some "up", vlanId := 105, localVeth := "", remoteIp := "", remoteVeth := "" }

def goOn (j : ℕ) : JobStep := .go j {}

def Jobs.acked (s : Jobs) (j : ℕ) : Bool := s.pool.log.any fun e => e.job = j && e.call.isAck

end Script

/-- A setup of a VLAN and its teardown arrive. The teardown is handled first and is acknowledged. Then
the setup makes the link and the peer, which nobody removes. -/
theorem vlan_outlives_teardown :
    ∃ s s', Reach (Jobs.step .constant) anyStep (Jobs.new {}) s ∧ s.acked 1 ∧
      s.pool.world.links = [] ∧ s.pool.world.peers.lookup (peerIp, 105) = none ∧
      Reach (Jobs.step .constant) anyStep s s' ∧ s'.pool.world.links = [(.vlan, 105)] ∧
      s'.pool.world.peers.lookup (peerIp, 105) = some peerIp := by
  obtain ⟨s, hs, hack, hlinks, hpeers, h⟩ : ∃ s, Reach (Jobs.step .constant) anyStep (Jobs.new {}) s ∧
      s.acked 1 ∧ s.pool.world.links = [] ∧ s.pool.world.peers.lookup (peerIp, 105) = none ∧
      ∃ s' ∈ run (Jobs.step .constant) s (List.replicate 2 (goOn 0)),
        s'.pool.world.links = [(.vlan, 105)] ∧
        s'.pool.world.peers.lookup (peerIp, 105) = some peerIp :=
    exists_reach ([.start (.vlanSetup vlan105), .start (.vlanTeardown 105 (some "down"))] ++
      List.replicate 5 (goOn 1)) (by decide +kernel)
  obtain ⟨s', hs'⟩ := exists_reach _ h
  exact ⟨s, s', hs, hack, hlinks, hpeers, hs'⟩

instance : DecidableRel UndoesVlan := fun q q' => by unfold UndoesVlan; split <;> infer_instance

instance : DecidablePred IsAck := fun c => by unfold IsAck; infer_instance

/-- The teardown is handled after the setup, and is the last to be acknowledged. -/
theorem teardown_acked_last_inTurn :
    ∃ s, Reach (Jobs.step .constant) (BeginsAfter UndoesVlan) (Jobs.new {}) s ∧ s.acked 1 ∧
      s.Settled Undoes IsAck ∧ s.pool.world.links = [] :=
  (exists_guarded (P := fun s => s.acked 1 ∧ s.pool.world.links = [])
    ([.start (.vlanSetup vlan105), .start (.vlanTeardown 105 (some "down"))] ++
      List.replicate 4 (goOn 0) ++ List.replicate 5 (goOn 1)) (by decide +kernel)).imp fun s h =>
    ⟨h.1, h.2.1, teardown_acked_last _ _ h.1, h.2.2⟩

/-! ## Containers -/

/-- The first message pauses the container that the second one resumes. -/
def PausesFor : Message → Message → Prop
  | .containerSuspend container, .containerResume container' _ => container = container'
  | _, _ => False

theorem exists_container (h : PausesFor q q') :
    ∃ container, q = .containerSuspend container := by
  cases q with
  | containerSuspend container => exact ⟨container, rfl⟩
  | _ => exact h.elim

instance : DecidableRel PausesFor := fun q q' => by unfold PausesFor; split <;> infer_instance

/-- A container is paused by a message that arrived before a resume that has been acknowledged. -/
def Jobs.PausesLate (s : Jobs) : Prop :=
  ∃ l₁ p l₂, s.pool.log = l₁ ++ p :: l₂ ∧ ∃ e ∈ l₂, IsAck e.call ∧ p.job < e.job ∧
    ∃ job job', s.pool.jobs.lookup e.job = some job ∧ s.pool.jobs.lookup p.job = some job' ∧
      PausesFor job'.request job.request ∧
      ∃ container, job'.request = .containerSuspend container ∧ p.call = .pause container

/-- The job of a suspend has its only operation before it, or none. -/
def Jobs.SuspendsOnce (s : Jobs) : Prop :=
  ∀ j job container, s.pool.jobs.lookup j = some job → job.request = .containerSuspend container →
    job.prog = handleContainerSuspend container ∨ job.prog.next = none

theorem Jobs.SuspendsOnce.step (h : s.SuspendsOnce) (hs : s.step P a = some s') :
    s'.SuspendsOnce := by
  intro j job container hj hreq
  cases a with
  | start q =>
    cases hs
    rw [jobs_begin] at hj
    split_ifs at hj
    · cases hj
      cases hreq
      exact .inl rfl
    · exact h j job container hj hreq
  | go j' o =>
    obtain ⟨-, q, c, k, hj', rfl⟩ := step_go.mp hs
    rw [Pool.lookup_perform] at hj
    split_ifs at hj
    · cases hj
      rcases h j' _ container hj' hreq with hprog | hnone
      · obtain ⟨rfl, hk⟩ := Prog.call.inj hprog
        obtain rfl := eq_of_heq hk
        exact .inr rfl
      · cases hnone
    · exact h j job container hj hreq
  | finish j' =>
    simp only [Jobs.step, Lanes.step, Option.ite_none_right_eq_some, Option.some.injEq] at hs
    obtain ⟨-, rfl⟩ := hs
    exact h j job container hj hreq
  | crash j' =>
    simp only [Jobs.step, Lanes.step, Pool.step, Option.ite_none_right_eq_some] at hs
    obtain ⟨pool, hp, rfl⟩ := Option.map_eq_some_iff.mp hs.2
    obtain ⟨-, rfl⟩ := (Option.ite_none_right_eq_some.mp hp).imp_right Option.some.inj
    rw [Dict.lookup_erase] at hj
    split_ifs at hj
    exact h j job container hj hreq
  | tick d =>
    simp only [Jobs.step, Lanes.step, Pool.step, Option.map_some, Option.some.injEq] at hs
    subst hs
    exact h j job container hj hreq

theorem Jobs.suspend_runs (h : s.Inv lane) (ho : s.SuspendsOnce) {i : ℕ}
    {job : Job Message HostCall HostReply Bool} {container : String}
    (hi : s.pool.jobs.lookup i = some job) (hreq : job.request = .containerSuspend container)
    (hnext : job.prog.next ≠ none) : ∃ k, s.step P (.go i {}) = some
      { s with pool := s.pool.perform (client P) i job.request (.pause container) k {} } := by
  -- the job is in no lane, so it waits for nobody
  have hfree : s.isFree i := by
    rcases hw : s.waits.lookup i with - | p
    · simp [isFree, hw]
    · have hlane := (h.behind i p hw).2.2
      rw [h.filed i job hi, hreq] at hlane
      cases hlane
  have hprog := (ho i job container hi hreq).resolve_right hnext
  refine ⟨fun _ => .ret false, step_go.mpr ⟨hfree, job.request, .pause container, _, ?_, rfl⟩⟩
  rw [hi]
  exact congrArg some (congrArg (Job.mk job.request) hprog)

/-- **No container is paused by an earlier message after its resume was acknowledged**, in every run in
which resumes are acknowledged after the earlier suspends of their container have run. After one that
is not, the suspend can still run. -/
theorem no_pause_after_resume (P : Parsers) (host : Host) :
    (∀ s, Reach (Jobs.step P) (Awaits PausesFor IsAck) (Jobs.new host) s → ¬ s.PausesLate) ∧
      ∀ (s : Jobs) (a : JobStep) (s' : Jobs), Reach (Jobs.step P) anyStep (Jobs.new host) s →
        s.step P a = some s' → ¬ s.Awaits PausesFor IsAck a →
          ∃ i s'', s'.step P (.go i {}) = some s'' ∧ s''.PausesLate := by
  constructor
  · intro s hs
    have key : s.Inv lane ∧ s.Settled PausesFor IsAck ∧ s.InOrder PausesFor IsAck := by
      refine hs.invariant
        (fun s => s.Inv lane ∧ s.Settled PausesFor IsAck ∧ s.InOrder PausesFor IsAck)
        ⟨inv_new host 0, settled_new host 0, inOrder_new host 0⟩ ?_
      rintro s a s' ⟨hinv, hset, hord⟩ ha hs
      exact ⟨hinv.step hs, hset.step hinv ha hs, hord.step hset hinv hs⟩
    rintro ⟨l₁, p, l₂, hl, e, he, hack, hlt, job, job', hjob, hjob', hrel, -⟩
    exact key.2.2 l₁ p l₂ hl e he hack hlt job job' hjob hjob' hrel
  · intro s a s' hreach hs ha
    have key : s.Inv lane ∧ s.SuspendsOnce := by
      refine hreach.invariant (fun s => s.Inv lane ∧ s.SuspendsOnce) ⟨inv_new host 0, ?_⟩ ?_
      · rintro j job container ⟨⟩
      · rintro s a s' ⟨hinv, honce⟩ - hs
        exact ⟨hinv.step hs, honce.step hs⟩
    cases a with
    | go j o =>
      obtain ⟨-, q, c, k, hj, rfl⟩ := step_go.mp hs
      simp only [awaits_go, not_forall] at ha
      obtain ⟨q', c', k', hj', hack, i, hi, job, hjob, hrel, hnext⟩ := ha
      obtain ⟨rfl, hprog⟩ := Job.mk.inj (Option.some.inj (hj.symm.trans hj'))
      cases hprog
      obtain ⟨container, hreq⟩ := exists_container hrel
      have hinv := key.1.step hs
      have honce := key.2.step hs
      have hi' : (s.pool.perform (client P) j q c k o).jobs.lookup i = some job := by
        rw [Pool.lookup_perform, if_neg hi.ne]
        exact hjob
      obtain ⟨k₂, hs''⟩ := Jobs.suspend_runs (P := P) hinv honce hi' hreq hnext
      let pool := (s.pool.perform (client P) j q c k o).perform (client P) i job.request
        (.pause container) k₂ {}
      have hresume : pool.jobs.lookup j = some ⟨q, k ((client P).exec s.pool.world s.pool.clock c o).2⟩ := by
        rw [Pool.lookup_perform, if_neg hi.ne', Pool.lookup_perform, if_pos rfl]
      have hsuspend : ∃ r, pool.jobs.lookup i = some ⟨job.request, k₂ r⟩ :=
        ⟨_, by rw [Pool.lookup_perform, if_pos rfl]⟩
      obtain ⟨r, hsuspend⟩ := hsuspend
      exact ⟨i, _, hs'', [], _, _, rfl, _, List.mem_cons_self, hack, hi, _, _, hresume, hsuspend, hrel,
        container, hreq, rfl⟩
    | _ => exact absurd trivial ha

/-- A suspend and a resume of a container arrive. The resume is handled first: it finds the container
running, and is acknowledged. Then the suspend pauses the container. -/
theorem paused_after_resume :
    ∃ s s', Reach (Jobs.step .constant) anyStep (Jobs.new {}) s ∧ s.acked 1 ∧
      s.pool.world.paused = [] ∧ Reach (Jobs.step .constant) anyStep s s' ∧
      s'.pool.world.paused = ["web"] := by
  obtain ⟨s, hs, hack, hpaused, h⟩ : ∃ s, Reach (Jobs.step .constant) anyStep (Jobs.new {}) s ∧
      s.acked 1 ∧ s.pool.world.paused = [] ∧
      ∃ s' ∈ run (Jobs.step .constant) s [goOn 0], s'.pool.world.paused = ["web"] :=
    exists_reach ([.start (.containerSuspend "web"), .start (.containerResume "web" (some "resume"))] ++
      List.replicate 3 (goOn 1)) (by decide +kernel)
  obtain ⟨s', hs'⟩ := exists_reach _ h
  exact ⟨s, s', hs, hack, hpaused, hs'⟩

/-- The suspend is handled first, and the resume undoes it. -/
theorem no_pause_after_resume_inTurn :
    ∃ s, Reach (Jobs.step .constant) (Awaits PausesFor IsAck) (Jobs.new {}) s ∧ s.acked 1 ∧
      ¬ s.PausesLate ∧ s.pool.world.paused = [] :=
  (exists_guarded (P := fun s => s.acked 1 ∧ s.pool.world.paused = [])
    ([.start (.containerSuspend "web"), .start (.containerResume "web" (some "resume")), goOn 0] ++
      List.replicate 3 (goOn 1)) (by decide +kernel)).imp fun s h =>
    ⟨h.1, h.2.1, (no_pause_after_resume _ _).1 s h.1, h.2.2⟩

/-! ## Turns -/

/-- **The jobs of a VXLAN take turns, and do not block each other.** When a job has made a call, the
earlier jobs of its VXLAN have ended. Of the jobs that are not done, one can go on, also after a panic.
When a VXLAN is no longer listed, its jobs are done. -/
theorem vxlan_jobs_in_turn {host : Host} (h : Reach (Jobs.step P) anyStep (Jobs.new host) s) (id : ℕ) :
    (∀ i j, s.laneOf.lookup i = some id → s.laneOf.lookup j = some id → i < j → s.Called j →
      s.Ended i) ∧
    (∀ i, s.laneOf.lookup i = some id → i ∉ s.done →
      ∃ j ≤ i, s.laneOf.lookup j = some id ∧ j ∉ s.done ∧ s.isFree j) ∧
    (s.tails.lookup id = none → ∀ i, s.laneOf.lookup i = some id → i ∈ s.done) := by
  have hinv : s.Inv lane := h.invariant (·.Inv lane) (inv_new host 0) fun _ _ _ ih _ hs => ih.step hs
  refine ⟨fun i j hi hj hlt hcall => ?_, fun i => ?_, hinv.noTail id⟩
  · exact hinv.ended i (hinv.started j (.inl hcall) i id hi hj hlt)
  -- a job that waits does so for an earlier one
  · induction i using Nat.strong_induction_on with
    | h i ih =>
      intro hi hdone
      by_cases hfree : s.isFree i
      · exact ⟨i, le_rfl, hi, hdone, hfree⟩
      · rcases hp : s.waits.lookup i with - | p
        · simp [isFree, hp] at hfree
        have hpd : p ∉ s.done := by simpa [isFree, hp] using hfree
        obtain ⟨hlt, hlane, -⟩ := hinv.behind i p hp
        obtain ⟨j, hle, hj⟩ := ih p hlt (hlane.trans hi) hpd
        exact ⟨j, hle.trans hlt.le, hj⟩

/-- Of two messages about a VXLAN, the second one waits for the first. -/
theorem vxlan_jobs_in_turn_two : ∃ s, Reach (Jobs.step .constant) anyStep (Jobs.new {}) s ∧
    s.isFree 1 = false ∧ ∃ j ≤ 1, s.laneOf.lookup j = some 7 ∧ j ∉ s.done ∧ s.isFree j := by
  obtain ⟨s, hs, hlane, hdone, hfree⟩ : ∃ s, Reach (Jobs.step .constant) anyStep (Jobs.new {}) s ∧
      s.laneOf.lookup 1 = some 7 ∧ 1 ∉ s.done ∧ s.isFree 1 = false :=
    exists_reach [.start (.netReady 7 none), .start (.netReady 7 none)] (by decide +kernel)
  exact ⟨s, hs, hfree, (vxlan_jobs_in_turn hs 7).2.1 1 hlane hdone⟩

end Nullnet.Client
