import Nullnet.Lib.Jobs
import Mathlib.Data.Finset.Insert

/-! # Lanes: jobs that wait for each other

Jobs are started in the order of their requests, and run in any order. A request may name a *lane*. A
job of a lane waits for the job that was started before it in the lane, if that one is not known to be
done: the last job of each lane is in `tails`, and a job that is done takes itself out of there.

* `Lanes.Inv`: what holds between lanes, tails and jobs; `Inv.step` is the step lemma.
* `Settled`: when a job makes a call of some kind, the earlier jobs that it has to come after have
  ended. This is so if the step waits for them (`Settled.step`), and the jobs of a lane always do
  (`Inv.awaits`). Then none of them makes a call afterwards (`InOrder`). Where all calls are meant, it is
  enough that the first one waits (`Settled.awaits`). -/

namespace Nullnet.Lib

/-- Jobs, the lanes that they are in, the job that each of them waits for, the last job of each lane,
and the jobs that are done. -/
structure Lanes (W Q C : Type) (R : C → Type) (α K : Type) where
  pool : Pool W Q C R α
  laneOf : Dict ℕ K := ∅
  waits : Dict ℕ ℕ := ∅
  tails : Dict K ℕ := ∅
  done : Finset ℕ := ∅

inductive LaneAction (Q I : Type)
  /-- A request arrives. -/
  | start (q : Q)
  /-- The next call of a job. -/
  | go (j : ℕ) (i : I)
  /-- The program of a job has come to its end. -/
  | finish (j : ℕ)
  /-- A job panics. -/
  | crash (j : ℕ)
  | tick (d : ℕ)

namespace Lanes

variable {W Q C : Type} {R : C → Type} {α I K : Type} [DecidableEq K]

/-- The job need not wait any more. -/
def isFree (s : Lanes W Q C R α K) (j : ℕ) : Bool :=
  (s.waits.lookup j).all fun p => p ∈ s.done

def new (w : W) (clock : ℕ) : Lanes W Q C R α K := { pool := .new w clock }

/-- A request arrives: its job is put at the end of its lane. -/
def begin (sv : Service W Q C R α I) (lane : Q → Option K) (s : Lanes W Q C R α K) (q : Q) :
    Lanes W Q C R α K :=
  let j := s.pool.nextJob
  let s := { s with
    pool := { s.pool with jobs := s.pool.jobs.insert j ⟨q, sv.handler q⟩, nextJob := j + 1 } }
  match lane q with
  | none => s
  | some k => { s with
      laneOf := s.laneOf.insert j k
      waits := (s.tails.lookup k).elim s.waits fun p => s.waits.insert j p
      tails := s.tails.insert k j }

def signal (s : Lanes W Q C R α K) (j : ℕ) : Lanes W Q C R α K :=
  { s with
    done := insert j s.done
    tails := s.tails.retain fun k p => !(s.laneOf.lookup j = some k ∧ p = j) }

/-- One step. A job that panics leaves its tail behind, but nobody waits for it. -/
def step (sv : Service W Q C R α I) (lane : Q → Option K) (s : Lanes W Q C R α K) :
    LaneAction Q I → Option (Lanes W Q C R α K)
  | .start q => some (s.begin sv lane q)
  | .go j i =>
    if s.isFree j then (s.pool.step sv (.go j i)).map fun pool => { s with pool } else none
  | .finish j =>
    if s.isFree j ∧ (s.pool.resultOf j).isSome then some (s.signal j) else none
  | .crash j =>
    if s.isFree j ∧ (s.pool.nextCall j).isSome then
      (s.pool.step sv (.drop j)).map fun pool => { s with pool, done := insert j s.done }
    else none
  | .tick d => (s.pool.step sv (.tick d)).map fun pool => { s with pool }

def Called (s : Lanes W Q C R α K) (j : ℕ) : Prop := ∃ e ∈ s.pool.log, e.job = j

def Ended (s : Lanes W Q C R α K) (j : ℕ) : Prop :=
  j < s.pool.nextJob ∧ ∀ job, s.pool.jobs.lookup j = some job → job.prog.next = none

/-! ## What a step does to the jobs -/

section

variable {sv : Service W Q C R α I} {lane : Q → Option K} {s s' : Lanes W Q C R α K}
  {a : LaneAction Q I} {q : Q} {j : ℕ}

theorem jobs_begin (j : ℕ) : (s.begin sv lane q).pool.jobs.lookup j =
    if j = s.pool.nextJob then some ⟨q, sv.handler q⟩ else s.pool.jobs.lookup j := by
  unfold begin
  rcases lane q with - | k <;> exact Dict.lookup_insert ..

theorem pool_begin (sv : Service W Q C R α I) (lane : Q → Option K) (s : Lanes W Q C R α K) (q : Q) :
    (s.begin sv lane q).pool.nextJob = s.pool.nextJob + 1 ∧
      (s.begin sv lane q).pool.log = s.pool.log ∧ (s.begin sv lane q).done = s.done := by
  unfold begin
  rcases lane q with - | k <;> exact ⟨rfl, rfl, rfl⟩

theorem step_go {i : I} : s.step sv lane (.go j i) = some s' ↔ s.isFree j ∧
    ∃ q c k, s.pool.jobs.lookup j = some ⟨q, .call c k⟩ ∧
      s' = { s with pool := s.pool.perform sv j q c k i } := by
  simp only [Lanes.step, Option.ite_none_right_eq_some, Option.map_eq_some_iff]
  refine and_congr_right fun _ => ⟨?_, ?_⟩
  · rintro ⟨pool, hp, rfl⟩
    cases Pool.step_steps hp with
    | go _ _ q c k hj => exact ⟨q, c, k, hj, rfl⟩
  · rintro ⟨q, c, k, hj, rfl⟩
    refine ⟨_, ?_, rfl⟩
    rw [Pool.step, hj]; rfl

/-- A job is new, or was there before with the same request; one that had no call left has none now. A
call is made by a job that need not wait. -/
structure Moves (s : Lanes W Q C R α K) (a : LaneAction Q I) (s' : Lanes W Q C R α K) : Prop where
  next : s.pool.nextJob ≤ s'.pool.nextJob
  kept : ∀ j job', s'.pool.jobs.lookup j = some job' →
    (j = s.pool.nextJob ∧ j < s'.pool.nextJob) ∨
      ∃ job, s.pool.jobs.lookup j = some job ∧ job.request = job'.request ∧
        (job.prog.next = none → job'.prog.next = none)
  log : s'.pool.log = s.pool.log ∨ ∃ e, s'.pool.log = e :: s.pool.log ∧
    (∃ i, a = .go e.job i) ∧ s.isFree e.job ∧
    ∃ q k, s.pool.jobs.lookup e.job = some ⟨q, .call e.call k⟩

theorem step_moves (hs : s.step sv lane a = some s') : Moves s a s' := by
  have hrefl : ∀ j job', s.pool.jobs.lookup j = some job' →
      ∃ job, s.pool.jobs.lookup j = some job ∧ job.request = job'.request ∧
        (job.prog.next = none → job'.prog.next = none) := fun j job' hj => ⟨job', hj, rfl, id⟩
  cases a with
  | start q =>
    cases hs
    obtain ⟨hnext, hlog, -⟩ := pool_begin sv lane s q
    refine ⟨hnext ▸ Nat.le_succ _, fun j job' hj => ?_, .inl hlog⟩
    rw [jobs_begin] at hj
    split_ifs at hj with hjn
    · exact .inl ⟨hjn, by omega⟩
    · exact .inr (hrefl j job' hj)
  | go j i =>
    obtain ⟨hfree, q, c, k, hj, rfl⟩ := step_go.mp hs
    refine ⟨le_rfl, fun j' job' hj' => .inr ?_, .inr ⟨_, rfl, ⟨i, rfl⟩, hfree, q, k, hj⟩⟩
    rw [Pool.lookup_perform] at hj'
    split_ifs at hj' with heq
    · exact ⟨⟨q, .call c k⟩, heq ▸ hj, Option.some.inj hj' ▸ rfl, nofun⟩
    · exact hrefl j' job' hj'
  | finish j =>
    simp only [Lanes.step, Option.ite_none_right_eq_some, Option.some.injEq] at hs
    obtain ⟨-, rfl⟩ := hs
    exact ⟨le_rfl, fun j job' hj => .inr (hrefl j job' hj), .inl rfl⟩
  | crash j =>
    simp only [Lanes.step, Pool.step, Option.ite_none_right_eq_some] at hs
    obtain ⟨-, hs⟩ := hs
    obtain ⟨pool, hp, rfl⟩ := Option.map_eq_some_iff.mp hs
    obtain ⟨-, rfl⟩ := (Option.ite_none_right_eq_some.mp hp).imp_right Option.some.inj
    refine ⟨le_rfl, fun j' job' hj' => .inr ?_, .inl rfl⟩
    rw [Dict.lookup_erase] at hj'
    split_ifs at hj'
    exact hrefl j' job' hj'
  | tick d =>
    simp only [Lanes.step, Pool.step, Option.map_some, Option.some.injEq] at hs
    subst hs
    exact ⟨le_rfl, fun j job' hj => .inr (hrefl j job' hj), .inl rfl⟩

omit [DecidableEq K] in
theorem Moves.mem_log (hm : Moves s a s') {e : Entry C R} (he : e ∈ s'.pool.log) :
    e ∈ s.pool.log ∨ (∃ i, a = .go e.job i) ∧ s.isFree e.job ∧
      ∃ q k, s.pool.jobs.lookup e.job = some ⟨q, .call e.call k⟩ := by
  rcases hm.log with hl | ⟨e0, hl, hgo⟩
  · exact .inl (hl ▸ he)
  · rcases List.mem_cons.mp (hl ▸ he) with rfl | he
    · exact .inr hgo
    · exact .inl he

omit [DecidableEq K] in
theorem Moves.request (hm : Moves s a s') {job' : Job Q C R α} (hlt : j < s.pool.nextJob)
    (hj : s'.pool.jobs.lookup j = some job') :
    ∃ job, s.pool.jobs.lookup j = some job ∧ job.request = job'.request := by
  rcases hm.kept j job' hj with ⟨rfl, -⟩ | ⟨job, hjob, hreq, -⟩
  · exact absurd hlt (Nat.lt_irrefl _)
  · exact ⟨job, hjob, hreq⟩

omit [DecidableEq K] in
theorem Ended.moves (hj : s.Ended j) (hm : Moves s a s') : s'.Ended j := by
  refine ⟨hj.1.trans_le hm.next, fun job' hjob' => ?_⟩
  rcases hm.kept j job' hjob' with ⟨hjn, -⟩ | ⟨job, hjob, -, hnone⟩
  · exact absurd hjn hj.1.ne
  · exact hnone (hj.2 job hjob)

end

/-! ## The order of the jobs of a lane -/

/-- The jobs of a lane come one after the other. -/
structure Inv (lane : Q → Option K) (s : Lanes W Q C R α K) : Prop where
  id : ∀ j job, s.pool.jobs.lookup j = some job → j < s.pool.nextJob
  past : ∀ j, s.Called j → j < s.pool.nextJob
  filed : ∀ j job, s.pool.jobs.lookup j = some job → s.laneOf.lookup j = lane job.request
  old : ∀ j k, s.laneOf.lookup j = some k → j < s.pool.nextJob
  ended : ∀ j ∈ s.done, s.Ended j
  noTail : ∀ k, s.tails.lookup k = none → ∀ i, s.laneOf.lookup i = some k → i ∈ s.done
  tail : ∀ k t, s.tails.lookup k = some t → s.laneOf.lookup t = some k ∧
    ∀ i, s.laneOf.lookup i = some k → i ≤ t
  behind : ∀ j p, s.waits.lookup j = some p →
    p < j ∧ s.laneOf.lookup p = s.laneOf.lookup j ∧ (s.laneOf.lookup j).isSome
  before : ∀ i j k, s.laneOf.lookup i = some k → s.laneOf.lookup j = some k → i < j →
    i ∈ s.done ∨ ∃ p, s.waits.lookup j = some p ∧ i ≤ p
  started : ∀ j, s.Called j ∨ j ∈ s.done → ∀ i k, s.laneOf.lookup i = some k →
    s.laneOf.lookup j = some k → i < j → i ∈ s.done

section

variable {sv : Service W Q C R α I} {lane : Q → Option K} {s s' : Lanes W Q C R α K}
  {a : LaneAction Q I}

theorem Inv.earlier_done (h : s.Inv lane) {j : ℕ} (hfree : s.isFree j) {i : ℕ} {k : K}
    (hi : s.laneOf.lookup i = some k) (hj : s.laneOf.lookup j = some k) (hlt : i < j) :
    i ∈ s.done := by
  rcases h.before i j k hi hj hlt with hd | ⟨p, hp, hle⟩
  · exact hd
  · have hpd : p ∈ s.done := by simpa [isFree, hp] using hfree
    obtain ⟨-, hlane, -⟩ := h.behind j p hp
    rcases Nat.lt_or_eq_of_le hle with hlt' | rfl
    · exact h.started p (.inr hpd) i k hi (hlane.trans hj) hlt'
    · exact hpd

theorem inv_new (w : W) (clock : ℕ) : Inv lane (new w clock : Lanes W Q C R α K) where
  id := by rintro j job ⟨⟩
  past := by rintro j ⟨e, ⟨⟩, -⟩
  filed := by rintro j job ⟨⟩
  old := by rintro j k ⟨⟩
  ended := by rintro j ⟨⟩
  noTail := by rintro k - i ⟨⟩
  tail := by rintro k t ⟨⟩
  behind := by rintro j p ⟨⟩
  before := by rintro i j k ⟨⟩
  started := by rintro j - i k ⟨⟩

theorem Inv.pool (h : s.Inv lane) {pool : Pool W Q C R α} (hm : Moves s a { s with pool })
    (hn : pool.nextJob = s.pool.nextJob) : Inv lane { s with pool } := by
  have hkept : ∀ j job, pool.jobs.lookup j = some job →
      ∃ job', s.pool.jobs.lookup j = some job' ∧ job'.request = job.request := by
    intro j job hj
    rcases hm.kept j job hj with ⟨rfl, hlt⟩ | ⟨job', hj', hreq, -⟩
    · exact absurd (hn ▸ hlt) (Nat.lt_irrefl _)
    · exact ⟨job', hj', hreq⟩
  have hcalled : ∀ j, (∃ e ∈ pool.log, e.job = j) → s.Called j ∨ j < s.pool.nextJob ∧ s.isFree j := by
    rintro j ⟨e, he, rfl⟩
    rcases hm.mem_log he with he | ⟨-, hfree, q, k, hjob⟩
    · exact .inl ⟨e, he, rfl⟩
    · exact .inr ⟨h.id _ _ hjob, hfree⟩
  refine ⟨fun j job hj => ?_, fun j hj => ?_, fun j job hj => ?_, fun j k hj => ?_,
    fun j hj => (h.ended j hj).moves hm, h.noTail, h.tail, h.behind, h.before,
    fun j hst i k hi hj hlt => ?_⟩
  · obtain ⟨job', hj', -⟩ := hkept j job hj
    exact (h.id j job' hj').trans_eq hn.symm
  · exact ((hcalled j hj).elim (h.past j) And.left).trans_eq hn.symm
  · obtain ⟨job', hj', hreq⟩ := hkept j job hj
    rw [← hreq]
    exact h.filed j job' hj'
  · exact (h.old j k hj).trans_eq hn.symm
  · rcases hst with hc | hd
    · rcases hcalled j hc with hc | ⟨-, hfree⟩
      · exact h.started j (.inl hc) i k hi hj hlt
      · exact h.earlier_done hfree hi hj hlt
    · exact h.started j (.inr hd) i k hi hj hlt

section

variable (h : s.Inv lane) {q : Q}
include h

theorem Inv.laneOf_begin (j : ℕ) : (s.begin sv lane q).laneOf.lookup j =
    if j = s.pool.nextJob then lane q else s.laneOf.lookup j := by
  have hno : s.laneOf.lookup s.pool.nextJob = none := by
    by_contra hne
    obtain ⟨k, hk⟩ := Option.ne_none_iff_exists'.mp hne
    exact Nat.lt_irrefl _ (h.old _ k hk)
  unfold begin
  rcases lane q with - | k
  · split_ifs with hj
    · rw [hj, hno]
    · rfl
  · exact Dict.lookup_insert ..

theorem Inv.waits_begin (j : ℕ) : (s.begin sv lane q).waits.lookup j =
    if j = s.pool.nextJob then (lane q).bind s.tails.lookup else s.waits.lookup j := by
  have hno : s.waits.lookup s.pool.nextJob = none := by
    by_contra hne
    obtain ⟨p, hp⟩ := Option.ne_none_iff_exists'.mp hne
    obtain ⟨k, hk⟩ := Option.isSome_iff_exists.mp (h.behind _ p hp).2.2
    exact Nat.lt_irrefl _ (h.old _ k hk)
  unfold begin
  rcases lane q with - | k
  · split_ifs with hj
    · rw [hj, hno]; rfl
    · rfl
  · rw [Option.bind_some]
    dsimp only
    rcases s.tails.lookup k with - | t
    · split_ifs with hj
      · rw [hj]; exact hno
      · rfl
    · exact Dict.lookup_insert ..

omit h in
theorem tails_begin (k : K) : (s.begin sv lane q).tails.lookup k =
    if lane q = some k then some s.pool.nextJob else s.tails.lookup k := by
  unfold begin
  rcases lane q with - | k'
  · rfl
  · rw [Dict.lookup_insert]
    exact if_congr (eq_comm.trans Option.some_inj.symm) rfl rfl

theorem Inv.begin (sv : Service W Q C R α I) (q : Q) : Inv lane (s.begin sv lane q) := by
  obtain ⟨hnext, hlog, hdone⟩ := pool_begin sv lane s q
  -- a job of a lane is the new one, or was in its lane before
  have hcases : ∀ {j k}, (s.begin sv lane q).laneOf.lookup j = some k →
      j = s.pool.nextJob ∧ lane q = some k ∨ j < s.pool.nextJob ∧ s.laneOf.lookup j = some k := by
    intro j k hj
    rw [h.laneOf_begin] at hj
    split_ifs at hj with hjn
    · exact .inl ⟨hjn, hj⟩
    · exact .inr ⟨h.old j k hj, hj⟩
  have hold : ∀ {j}, j < s.pool.nextJob →
      (s.begin sv lane q).laneOf.lookup j = s.laneOf.lookup j := by
    intro j hj
    rw [h.laneOf_begin, if_neg hj.ne]
  refine ⟨fun j job hj => ?_, fun j hj => ?_, fun j job hj => ?_, fun j k hj => ?_, fun j hj => ?_,
    fun k hk i hi => ?_, fun k t ht => ?_, fun j p hp => ?_, fun i j k hi hj hlt => ?_,
    fun j hst i k hi hj hlt => ?_⟩
  · rw [jobs_begin] at hj
    rw [hnext]
    split_ifs at hj with hjn
    · exact hjn ▸ Nat.lt_succ_self _
    · exact Nat.lt_succ_of_lt (h.id j job hj)
  · rw [Called, hlog] at hj
    exact hnext ▸ Nat.lt_succ_of_lt (h.past j hj)
  · rw [jobs_begin] at hj
    rw [h.laneOf_begin]
    split_ifs at hj with hjn
    · rw [if_pos hjn, ← Option.some.inj hj]
    · rw [if_neg hjn]
      exact h.filed j job hj
  · rcases hcases hj with ⟨rfl, -⟩ | ⟨hlt, -⟩ <;> omega
  · rw [hdone] at hj
    obtain ⟨hlt, hend⟩ := h.ended j hj
    refine ⟨hnext ▸ Nat.lt_succ_of_lt hlt, fun job hjob => ?_⟩
    rw [jobs_begin, if_neg hlt.ne] at hjob
    exact hend job hjob
  · rw [tails_begin] at hk
    split_ifs at hk with hq
    rw [hdone]
    rcases hcases hi with ⟨-, hq'⟩ | ⟨-, hi⟩
    · exact absurd hq' hq
    · exact h.noTail k hk i hi
  · rw [tails_begin] at ht
    split_ifs at ht with hq
    · cases ht
      refine ⟨by rw [h.laneOf_begin, if_pos rfl, hq], fun i hi => ?_⟩
      rcases hcases hi with ⟨rfl, -⟩ | ⟨hlt, -⟩ <;> omega
    · obtain ⟨htl, hall⟩ := h.tail k t ht
      refine ⟨by rw [hold (h.old t k htl), htl], fun i hi => ?_⟩
      rcases hcases hi with ⟨-, hq'⟩ | ⟨-, hi⟩
      · exact absurd hq' hq
      · exact hall i hi
  · rw [h.waits_begin] at hp
    split_ifs at hp with hjn
    · obtain ⟨k, hq, ht⟩ := Option.bind_eq_some_iff.mp hp
      have hpl := (h.tail k p ht).1
      have hpn := h.old p k hpl
      rw [hold hpn, h.laneOf_begin, if_pos hjn, hq, hpl, hjn]
      exact ⟨hpn, rfl, rfl⟩
    · obtain ⟨hlt, hl, hsome⟩ := h.behind j p hp
      obtain ⟨k, hk⟩ := Option.isSome_iff_exists.mp hsome
      have hjn := h.old j k hk
      rw [hold hjn, hold (hlt.trans hjn)]
      exact ⟨hlt, hl, hsome⟩
  · rw [h.waits_begin, hdone]
    rcases hcases hj with ⟨hjn, hq⟩ | ⟨hjn, hj⟩
    · rw [if_pos hjn, hq, Option.bind_some]
      rw [hold (hjn ▸ hlt)] at hi
      rcases ht : s.tails.lookup k with - | t
      · exact .inl (h.noTail k ht i hi)
      · exact .inr ⟨t, rfl, (h.tail k t ht).2 i hi⟩
    · rw [if_neg hjn.ne]
      rw [hold (hlt.trans hjn)] at hi
      exact h.before i j k hi hj hlt
  · rw [Called, hlog, hdone] at hst
    have hjn : j < s.pool.nextJob := hst.elim (h.past j) fun hd => (h.ended j hd).1
    rw [hold hjn] at hj
    rw [hold (hlt.trans hjn)] at hi
    rw [hdone]
    exact h.started j hst i k hi hj hlt

end

theorem Inv.finish (h : s.Inv lane) {j : ℕ} (hfree : s.isFree j) (hj : s.Ended j) {tails : Dict K ℕ}
    (htails : ∀ k t, tails.lookup k = some t → s.tails.lookup k = some t)
    (hgone : ∀ k, tails.lookup k = none →
      s.tails.lookup k = none ∨ s.tails.lookup k = some j) :
    Inv lane { s with done := insert j s.done, tails } where
  id := h.id
  past := h.past
  filed := h.filed
  old := h.old
  ended i hi := (Finset.mem_insert.mp hi).elim (fun he => he ▸ hj) (h.ended i)
  noTail k hk i hi := by
    rcases hgone k hk with hn | ht
    · exact Finset.mem_insert_of_mem (h.noTail k hn i hi)
    · obtain ⟨hl, hall⟩ := h.tail k j ht
      rcases Nat.lt_or_eq_of_le (hall i hi) with hlt | rfl
      · exact Finset.mem_insert_of_mem (h.earlier_done hfree hi hl hlt)
      · exact Finset.mem_insert_self _ _
  tail k t ht := h.tail k t (htails k t ht)
  behind := h.behind
  before i j' k hi hj' hlt := (h.before i j' k hi hj' hlt).imp_left Finset.mem_insert_of_mem
  started := by
    rintro j' hst i k hi hj' hlt
    refine Finset.mem_insert_of_mem ?_
    rcases hst with hc | hd
    · exact h.started j' (.inl hc) i k hi hj' hlt
    · rcases Finset.mem_insert.mp hd with rfl | hd
      · exact h.earlier_done hfree hi hj' hlt
      · exact h.started j' (.inr hd) i k hi hj' hlt

/-- **The jobs of a lane come one after the other, in every step.** -/
theorem Inv.step (h : s.Inv lane) (hs : s.step sv lane a = some s') : s'.Inv lane := by
  have hm := step_moves hs
  cases a with
  | start q =>
    obtain rfl := Option.some.inj hs
    exact h.begin sv q
  | go j i =>
    obtain ⟨-, q, c, k, -, rfl⟩ := step_go.mp hs
    exact h.pool hm rfl
  | finish j =>
    simp only [Lanes.step, Option.ite_none_right_eq_some, Option.some.injEq] at hs
    obtain ⟨⟨hfree, hres⟩, rfl⟩ := hs
    obtain ⟨r, hr⟩ := Option.isSome_iff_exists.mp hres
    obtain ⟨job, hjob, hprog⟩ := Option.bind_eq_some_iff.mp hr
    have hended : s.Ended j := by
      refine ⟨h.id j _ hjob, fun job' hjob' => ?_⟩
      obtain rfl := Option.some.inj (hjob.symm.trans hjob')
      rcases hp : job.prog with r | ⟨c, k⟩
      · rfl
      · rw [hp] at hprog; cases hprog
    refine h.finish hfree hended (fun k t ht => ?_) fun k hk => ?_
    · rw [Dict.lookup_retain, Option.filter_eq_some_iff] at ht
      exact ht.1
    · rw [Dict.lookup_retain] at hk
      rcases ht : s.tails.lookup k with - | t
      · exact .inl rfl
      · rw [ht, Option.filter_eq_none_iff] at hk
        have hown : s.laneOf.lookup j = some k ∧ t = j := by simpa using hk t rfl
        exact .inr (congrArg some hown.2)
  | crash j =>
    simp only [Lanes.step, Pool.step, Option.ite_none_right_eq_some] at hs
    obtain ⟨⟨hfree, -⟩, hs⟩ := hs
    obtain ⟨pool, hp, rfl⟩ := Option.map_eq_some_iff.mp hs
    obtain ⟨hsome, rfl⟩ := (Option.ite_none_right_eq_some.mp hp).imp_right Option.some.inj
    obtain ⟨job, hjob⟩ := Option.isSome_iff_exists.mp hsome
    have hpool : Inv lane { s with pool := { s.pool with jobs := s.pool.jobs.erase j } } :=
      h.pool ⟨hm.next, hm.kept, hm.log⟩ rfl
    refine hpool.finish hfree ⟨h.id j job hjob, fun job' hj' => ?_⟩ (fun k t ht => ht) fun k hk =>
      .inl hk
    rw [AList.lookup_erase] at hj'
    cases hj'
  | tick d =>
    simp only [Lanes.step, Pool.step, Option.map_some, Option.some.injEq] at hs
    subst hs
    exact h.pool hm rfl

end

/-! ## Calls that come after other jobs -/

section

variable {sv : Service W Q C R α I} {lane : Q → Option K} {s s' : Lanes W Q C R α K}
  {a : LaneAction Q I} {rel : Q → Q → Prop} {late : C → Prop}

/-- A job that has made a late call comes after all earlier jobs that it is related to. -/
def Settled (rel : Q → Q → Prop) (late : C → Prop) (s : Lanes W Q C R α K) : Prop :=
  ∀ e ∈ s.pool.log, late e.call → ∀ job, s.pool.jobs.lookup e.job = some job →
    ∀ i < e.job, ∀ job', s.pool.jobs.lookup i = some job' → rel job'.request job.request → s.Ended i

/-- If the step is a late call, all earlier jobs that the job is related to have ended. -/
def Awaits (rel : Q → Q → Prop) (late : C → Prop) (s : Lanes W Q C R α K) : LaneAction Q I → Prop
  | .go j _ =>
    match s.pool.jobs.lookup j with
    | some ⟨q, .call c _⟩ => late c → ∀ i < j, ∀ job' ∈ s.pool.jobs.lookup i,
        rel job'.request q → job'.prog.next = none
    | _ => True
  | _ => True

instance [DecidableRel rel] [DecidablePred late] (s : Lanes W Q C R α K) (a : LaneAction Q I) :
    Decidable (s.Awaits rel late a) := by
  unfold Awaits
  split
  · split <;> infer_instance
  · infer_instance

omit [DecidableEq K] in
theorem awaits_go {j : ℕ} {i : I} : s.Awaits rel late (.go j i) ↔
    ∀ q c k, s.pool.jobs.lookup j = some ⟨q, .call c k⟩ → late c →
      ∀ i < j, ∀ job', s.pool.jobs.lookup i = some job' → rel job'.request q →
        job'.prog.next = none := by
  dsimp only [Awaits]
  constructor
  · intro h q c k hj
    simpa only [hj, Option.mem_def] using h
  · intro h
    split
    · next q c k hj => exact h q c k hj
    · trivial

omit [DecidableEq K] in
theorem settled_new (w : W) (clock : ℕ) : Settled rel late (new w clock : Lanes W Q C R α K) := by
  rintro e ⟨⟩

/-- **A step that awaits the jobs it has to come after.** -/
theorem Settled.step (hset : s.Settled rel late) (h : s.Inv lane) (ha : s.Awaits rel late a)
    (hs : s.step sv lane a = some s') : s'.Settled rel late := by
  have hm := step_moves hs
  intro e he hlate job' hjob' i hi jobᵢ' hjobᵢ' hrel
  rcases hm.mem_log he with he | ⟨⟨i', rfl⟩, -, q, k, hj⟩
  · have hlt := h.past e.job ⟨e, he, rfl⟩
    obtain ⟨job, hjob, hreq⟩ := hm.request hlt hjob'
    obtain ⟨jobᵢ, hjobᵢ, hreqᵢ⟩ := hm.request (hi.trans hlt) hjobᵢ'
    rw [← hreq, ← hreqᵢ] at hrel
    exact (hset e he hlate job hjob i hi jobᵢ hjobᵢ hrel).moves hm
  · have hlt := h.id e.job _ hj
    obtain ⟨job, hjob, hreq⟩ := hm.request hlt hjob'
    obtain ⟨jobᵢ, hjobᵢ, hreqᵢ⟩ := hm.request (hi.trans hlt) hjobᵢ'
    cases hj.symm.trans hjob
    rw [← hreq, ← hreqᵢ] at hrel
    refine Ended.moves ⟨hi.trans hlt, fun job hjob => ?_⟩ hm
    cases hjobᵢ.symm.trans hjob
    exact awaits_go.mp ha q e.call k hj hlate i hi _ hjobᵢ hrel

/-- If the step is the first call of a job, all earlier jobs that the job is related to have ended. -/
def BeginsAfter (rel : Q → Q → Prop) (s : Lanes W Q C R α K) : LaneAction Q I → Prop
  | .go j _ => ¬ s.Called j → ∀ job ∈ s.pool.jobs.lookup j, ∀ i < j, ∀ job' ∈ s.pool.jobs.lookup i,
      rel job'.request job.request → job'.prog.next = none
  | _ => True

instance [DecidableRel rel] (s : Lanes W Q C R α K) (a : LaneAction Q I) :
    Decidable (s.BeginsAfter rel a) := by
  cases a <;> unfold BeginsAfter Called <;> infer_instance

omit [DecidableEq K] in
/-- A job that has come after other jobs with its first call comes after them with all calls. -/
theorem Settled.awaits (hset : s.Settled rel fun _ => True) (hb : s.BeginsAfter rel a) :
    s.Awaits rel (fun _ => True) a := by
  cases a with
  | go j i =>
    refine awaits_go.mpr fun q c k hj _ i' hi' job' hjob' hrel => ?_
    by_cases hcalled : s.Called j
    · obtain ⟨e, he, rfl⟩ := hcalled
      exact (hset e he trivial _ hj i' hi' job' hjob' hrel).2 job' hjob'
    · exact hb hcalled _ hj i' hi' job' hjob' hrel
  | _ => trivial

theorem Inv.awaits (h : s.Inv lane) (hs : s.step sv lane a = some s')
    (hrel : ∀ q q', rel q q' → lane q = lane q' ∧ (lane q').isSome) : s.Awaits rel late a := by
  cases a with
  | go j i =>
    have hfree := (step_go.mp hs).1
    refine awaits_go.mpr fun q c k hj _ i' hi' job' hjob' hqq => ?_
    obtain ⟨hlane, hsome⟩ := hrel _ _ hqq
    obtain ⟨l, hl⟩ := Option.isSome_iff_exists.mp hsome
    have hj' : s.laneOf.lookup j = some l := (h.filed j _ hj).trans hl
    have hi'' : s.laneOf.lookup i' = some l := (h.filed i' _ hjob').trans (hlane.trans hl)
    exact (h.ended i' (h.earlier_done hfree hi'' hj' hi')).2 job' hjob'
  | _ => trivial

/-- No job makes a call after a later job that it is related to has made a late one. -/
def InOrder (rel : Q → Q → Prop) (late : C → Prop) (s : Lanes W Q C R α K) : Prop :=
  ∀ l₁ p l₂, s.pool.log = l₁ ++ p :: l₂ → ∀ e ∈ l₂, late e.call → p.job < e.job →
    ∀ job job', s.pool.jobs.lookup e.job = some job → s.pool.jobs.lookup p.job = some job' →
      ¬ rel job'.request job.request

omit [DecidableEq K] in
theorem inOrder_new (w : W) (clock : ℕ) : InOrder rel late (new w clock : Lanes W Q C R α K) := by
  intro l1 p l2 hl
  exact absurd hl.symm (by simp [new, Pool.new])

/-- **Where late calls are settled, calls come in order.** -/
theorem InOrder.step (ho : s.InOrder rel late) (hset : s.Settled rel late) (h : s.Inv lane)
    (hs : s.step sv lane a = some s') : s'.InOrder rel late := by
  have hm := step_moves hs
  intro l1 p l2 hl e he hlate hlt job1' job2' hjob1' hjob2' hrel
  have hmem : e ∈ s.pool.log := by
    rcases hm.log with hlog | ⟨p', hlog, -⟩
    · rw [← hlog, hl]; simp [he]
    · rcases l1 with - | ⟨x, l1⟩
      · cases hlog.symm.trans hl
        exact he
      · obtain ⟨-, hl⟩ := List.cons.inj (hlog.symm.trans hl)
        rw [hl]; simp [he]
  have hlt1 := h.past e.job ⟨e, hmem, rfl⟩
  obtain ⟨job1, hjob1, hreq1⟩ := hm.request hlt1 hjob1'
  obtain ⟨job2, hjob2, hreq2⟩ := hm.request (hlt.trans hlt1) hjob2'
  rw [← hreq1, ← hreq2] at hrel
  have hold : ∀ l, s.pool.log ≠ l ++ p :: l2 := fun l hl =>
    ho l p l2 hl e he hlate hlt job1 job2 hjob1 hjob2 hrel
  rcases hm.log with hlog | ⟨p', hlog, -, -, q, k, hj⟩
  · exact hold l1 (hlog ▸ hl)
  · rcases l1 with - | ⟨x, l1⟩
    · -- the call is the new one, but its job has ended
      cases hlog.symm.trans hl
      have hend := (hset e hmem hlate job1 hjob1 _ hlt job2 hjob2 hrel).2 _ hj
      cases hend
    · exact hold l1 (List.cons.inj (hlog.symm.trans hl)).2

end

end Lanes

end Nullnet.Lib
