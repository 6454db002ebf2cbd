import Nullnet.Lib.Dict
import Nullnet.Lib.Runs

/-! # Jobs: interleaved programs of atomic calls

A `Prog` is a program that talks to a shared world through calls: it ends with a result, or makes a
call and goes on with the reply. A `Service` says which program handles a request, and what a call
does to the world. In a `Pool` any number of requests are handled at the same time: a step starts a
job, performs the next call of one, drops one, or lets time pass. The log has the calls and replies,
the last one first.

A `Typestate` follows a job through its calls: its state says which calls may come next, and with which
results the job may end. `Typestate.Obeys` says that a program keeps to this for all expected replies,
and `keeps_bind` is the rule for one program after another. If all handlers keep to it, every job is in
a state that its calls have led to, and its next call is allowed there (`Pool.Tracks.step`). So a
property of all interleavings needs the states of the jobs only, not their programs. -/

namespace Nullnet.Lib

/-! ## Programs -/

/-- A program: its calls, and its result. -/
inductive Prog (C : Type) (R : C → Type) (α : Type) : Type
  | ret (a : α)
  | call (c : C) (k : R c → Prog C R α)

namespace Prog

variable {C : Type} {R : C → Type} {α β : Type} {P : C → Prop} {p : Prog C R α}

def bind : Prog C R α → (α → Prog C R β) → Prog C R β
  | .ret a, f => f a
  | .call c k, f => .call c fun r => (k r).bind f

instance : Monad (Prog C R) where
  pure := .ret
  bind := bind

def perform (c : C) : Prog C R (R c) := .call c .ret

def next : Prog C R α → Option C
  | .ret _ => none
  | .call c _ => some c

def result : Prog C R α → Option α
  | .ret a => some a
  | .call _ _ => none

/-- All calls of the program satisfy `P`, whatever the replies. -/
def Makes (P : C → Prop) : Prog C R α → Prop
  | .ret _ => True
  | .call c k => P c ∧ ∀ r, (k r).Makes P

theorem Makes.mono {P' : C → Prop} (h : p.Makes P) (hP : ∀ c, P c → P' c) :
    p.Makes P' := by
  induction p with
  | ret a => trivial
  | call c k ih => exact ⟨hP c h.1, fun r => ih r (h.2 r)⟩

theorem makes_pure {a : α} : (pure a : Prog C R α).Makes P := trivial

theorem makes_perform {c : C} (h : P c) : (perform c : Prog C R (R c)).Makes P :=
  ⟨h, fun _ => trivial⟩

theorem makes_bind {f : α → Prog C R β} (hp : p.Makes P)
    (hf : ∀ a, (f a).Makes P) : (p >>= f).Makes P := by
  induction p with
  | ret a => exact hf a
  | call c k ih => exact ⟨hp.1, fun r => ih r (hp.2 r)⟩

/-- The program with its calls as calls of another kind. -/
def embed {C' : Type} {R' : C' → Type} (f : C → C') :
    Prog C (fun c => R' (f c)) α → Prog C' R' α
  | .ret a => .ret a
  | .call c k => .call (f c) fun r => (k r).embed f

end Prog

/-! ## Pools of jobs -/

/-- The programs that handle requests of type `Q`, and the calls; an outcome of type `I` is what the
environment makes of a call. -/
structure Service (W Q C : Type) (R : C → Type) (α I : Type) where
  handler : Q → Prog C R α
  exec : W → ℕ → (c : C) → I → W × R c

/-- A request, and what is left of its program. -/
structure Job (Q C : Type) (R : C → Type) (α : Type) where
  request : Q
  prog : Prog C R α

/-- A call that was made: by which job, when, and with which reply. -/
structure Entry (C : Type) (R : C → Type) where
  job : ℕ
  time : ℕ
  call : C
  reply : R call

/-- The world, the jobs and what they have done. -/
structure Pool (W Q C : Type) (R : C → Type) (α : Type) where
  world : W
  clock : ℕ
  jobs : Dict ℕ (Job Q C R α)
  nextJob : ℕ
  log : List (Entry C R)

inductive JobAction (Q I : Type)
  | start (q : Q)
  | go (j : ℕ) (i : I)
  | drop (j : ℕ)
  | tick (d : ℕ)

namespace Pool

variable {W Q C : Type} {R : C → Type} {α I : Type}

def new (w : W) (clock : ℕ) : Pool W Q C R α := ⟨w, clock, ∅, 0, []⟩

def perform (sv : Service W Q C R α I) (s : Pool W Q C R α) (j : ℕ) (q : Q) (c : C)
    (k : R c → Prog C R α) (i : I) : Pool W Q C R α :=
  let done := sv.exec s.world s.clock c i
  { s with
    world := done.1
    jobs := s.jobs.insert j ⟨q, k done.2⟩
    log := ⟨j, s.clock, c, done.2⟩ :: s.log }

def step (sv : Service W Q C R α I) (s : Pool W Q C R α) : JobAction Q I → Option (Pool W Q C R α)
  | .start q => some { s with
      jobs := s.jobs.insert s.nextJob ⟨q, sv.handler q⟩
      nextJob := s.nextJob + 1 }
  | .go j i => (s.jobs.lookup j).bind fun job =>
      match job.prog with
      | .ret _ => none
      | .call c k => some (s.perform sv j job.request c k i)
  | .drop j => if (s.jobs.lookup j).isSome then some { s with jobs := s.jobs.erase j } else none
  | .tick d => some { s with clock := s.clock + d }

inductive Steps (sv : Service W Q C R α I) (s : Pool W Q C R α) :
    JobAction Q I → Pool W Q C R α → Prop
  | start (q : Q) : Steps sv s (.start q) { s with
      jobs := s.jobs.insert s.nextJob ⟨q, sv.handler q⟩
      nextJob := s.nextJob + 1 }
  | go (j : ℕ) (i : I) (q : Q) (c : C) (k : R c → Prog C R α)
      (hj : s.jobs.lookup j = some ⟨q, .call c k⟩) : Steps sv s (.go j i) (s.perform sv j q c k i)
  | drop (j : ℕ) : Steps sv s (.drop j) { s with jobs := s.jobs.erase j }
  | tick (d : ℕ) : Steps sv s (.tick d) { s with clock := s.clock + d }

variable {sv : Service W Q C R α I} {s s' : Pool W Q C R α} {a : JobAction Q I}

theorem step_steps (h : s.step sv a = some s') : Steps sv s a s' := by
  cases a with
  | start q => exact Option.some.inj h ▸ .start q
  | go j i =>
    obtain ⟨⟨q, prog⟩, hj, h⟩ := Option.bind_eq_some_iff.mp h
    cases prog with
    | ret => cases h
    | call c k => exact Option.some.inj h ▸ .go j i q c k hj
  | drop j =>
    dsimp only [step] at h
    split_ifs at h
    exact Option.some.inj h ▸ .drop j
  | tick d => exact Option.some.inj h ▸ .tick d

def nextCall (s : Pool W Q C R α) (j : ℕ) : Option C := (s.jobs.lookup j).bind (·.prog.next)

def resultOf (s : Pool W Q C R α) (j : ℕ) : Option α := (s.jobs.lookup j).bind (·.prog.result)

end Pool

/-! ## Typestates -/

/-- The states of a job: the first one, the one after a call and its reply, the calls that may come
next, the replies that are expected, and the results with which a job may end. -/
structure Typestate (Q C : Type) (R : C → Type) (α L : Type) where
  init : Q → L
  next : L → (c : C) → R c → L
  allows : L → C → Prop
  expects : L → (c : C) → R c → Prop
  ends : L → α → Prop

namespace Typestate

variable {W Q C : Type} {R : C → Type} {α β I L : Type} (T : Typestate Q C R α L)

/-- The program keeps to the typestate, and `E` holds at its end. -/
def Keeps (E : L → β → Prop) : L → Prog C R β → Prop
  | l, .ret b => E l b
  | l, .call c k => T.allows l c ∧ ∀ r, T.expects l c r → Keeps E (T.next l c r) (k r)

/-- The program keeps to the typestate. -/
def Obeys (l : L) (p : Prog C R α) : Prop := T.Keeps T.ends l p

variable {T} {E : L → β → Prop} {l : L} {p : Prog C R β}

@[simp] theorem keeps_ret {b : β} : T.Keeps E l (.ret b) ↔ E l b := Iff.rfl

/-- **One program after another**: the second one starts where the first one ends. -/
@[simp] theorem keeps_bind {γ : Type} {E : L → γ → Prop} {f : β → Prog C R γ} :
    T.Keeps E l (p >>= f) ↔ T.Keeps (fun l b => T.Keeps E l (f b)) l p := by
  change T.Keeps E l (p.bind f) ↔ _
  induction p generalizing l with
  | ret b => exact Iff.rfl
  | call c k ih => exact and_congr_right fun _ => forall₂_congr fun r _ => ih r

theorem Keeps.mono {E' : L → β → Prop} (h : T.Keeps E l p)
    (hE : ∀ l b, E l b → E' l b) : T.Keeps E' l p := by
  induction p generalizing l with
  | ret b => exact hE l b h
  | call c k ih => exact ⟨h.1, fun r hr => ih r (h.2 r hr)⟩

/-- A program keeps to the typestate if its calls are allowed in all states of a kind, and do not lead
out of it. -/
theorem keeps_of_makes {P : C → Prop} {J : L → Prop}
    (hp : p.Makes P) (hP : ∀ l c, J l → P c → T.allows l c ∧ ∀ r, J (T.next l c r))
    (hE : ∀ l b, J l → E l b) (hl : J l) : T.Keeps E l p := by
  induction p generalizing l with
  | ret b => exact hE l b hl
  | call c k ih =>
    obtain ⟨hallows, hnext⟩ := hP l c hl hp.1
    exact ⟨hallows, fun r _ => ih r (hp.2 r) (hnext r)⟩

def comap {C' : Type} (T : Typestate Q C R α L) (f : C' → C) :
    Typestate Q C' (fun c => R (f c)) α L where
  init := T.init
  next l c r := T.next l (f c) r
  allows l c := T.allows l (f c)
  expects l c r := T.expects l (f c) r
  ends := T.ends

theorem keeps_embed {C' : Type} {f : C' → C}
    {p : Prog C' (fun c => R (f c)) β} : T.Keeps E l (p.embed f) ↔ (T.comap f).Keeps E l p := by
  induction p generalizing l with
  | ret b => exact Iff.rfl
  | call c k ih => exact and_congr_right fun _ => forall₂_congr fun r _ => ih r

variable (T)

theorem obeys_call {c : C} {k : R c → Prog C R α} : T.Obeys l (.call c k) ↔
    T.allows l c ∧ ∀ r, T.expects l c r → T.Obeys (T.next l c r) (k r) := Iff.rfl

/-- The state of a job after its calls in a log. -/
def after (l : L) (j : ℕ) : List (Entry C R) → L
  | [] => l
  | e :: log => if e.job = j then T.next (after l j log) e.call e.reply else after l j log

theorem after_eq_of_forall {j : ℕ} {log : List (Entry C R)} (h : ∀ e ∈ log, e.job ≠ j) :
    T.after l j log = l := by
  induction log with
  | nil => rfl
  | cons e log ih =>
    rw [after, if_neg (h e List.mem_cons_self)]
    exact ih fun e' he' => h e' (List.mem_cons_of_mem e he')

end Typestate

namespace Pool

variable {W Q C : Type} {R : C → Type} {α I L : Type} {T : Typestate Q C R α L}
  {sv : Service W Q C R α I} {s s' : Pool W Q C R α} {a : JobAction Q I} {j : ℕ} {q : Q} {c : C}
  {k : R c → Prog C R α} {i : I} {p : L → Bool} {j' : ℕ}

def stateOf (T : Typestate Q C R α L) (s : Pool W Q C R α) (j : ℕ) (q : Q) : L :=
  T.after (T.init q) j s.log

/-- The step starts a request whose handler keeps to the typestate, or the reply is expected. -/
def Fits (T : Typestate Q C R α L) (sv : Service W Q C R α I) (s : Pool W Q C R α) :
    JobAction Q I → Prop
  | .start q => T.Obeys (T.init q) (sv.handler q)
  | .go j i => ∀ q c k, s.jobs.lookup j = some ⟨q, .call c k⟩ →
      T.expects (s.stateOf T j q) c (sv.exec s.world s.clock c i).2
  | _ => True

/-- Every job keeps to the typestate. -/
structure Tracks (T : Typestate Q C R α L) (s : Pool W Q C R α) : Prop where
  id : ∀ j job, s.jobs.lookup j = some job → j < s.nextJob
  past : ∀ e ∈ s.log, e.job < s.nextJob
  obeys : ∀ j job, s.jobs.lookup j = some job → T.Obeys (s.stateOf T j job.request) job.prog

theorem tracks_new (w : W) (clock : ℕ) : Tracks T (new w clock : Pool W Q C R α) := by
  refine ⟨?_, ?_, ?_⟩
  · nofun
  · nofun
  · nofun

theorem stateOf_perform {q' : Q} : (s.perform sv j q c k i).stateOf T j' q' =
      if j = j' then T.next (s.stateOf T j' q') c (sv.exec s.world s.clock c i).2
      else s.stateOf T j' q' := rfl

theorem Tracks.stateOf_new (h : Tracks T s) (q : Q) : s.stateOf T s.nextJob q = T.init q :=
  T.after_eq_of_forall fun e he => Nat.ne_of_lt (h.past e he)

theorem lookup_perform : (s.perform sv j q c k i).jobs.lookup j' =
      if j' = j then some ⟨q, k (sv.exec s.world s.clock c i).2⟩ else s.jobs.lookup j' :=
  Dict.lookup_insert ..

theorem Steps.request (h : Steps sv s a s') {job' : Job Q C R α} (hlt : j < s.nextJob)
    (hj' : s'.jobs.lookup j = some job') :
    ∃ job, s.jobs.lookup j = some job ∧ job.request = job'.request := by
  cases h with
  | start q =>
    rw [Dict.lookup_insert, if_neg (Nat.ne_of_lt hlt)] at hj'
    exact ⟨job', hj', rfl⟩
  | go j0 i q c k hj =>
    rw [lookup_perform] at hj'
    split_ifs at hj' with heq
    · exact ⟨_, heq ▸ hj, (Option.some.inj hj' ▸ rfl)⟩
    · exact ⟨job', hj', rfl⟩
  | drop j0 =>
    rw [Dict.lookup_erase] at hj'
    split_ifs at hj'
    exact ⟨job', hj', rfl⟩
  | tick d => exact ⟨job', hj', rfl⟩

/-- **All jobs keep to the typestate in every step that fits.** -/
theorem Tracks.step (h : Tracks T s) (hfits : s.Fits T sv a) (hs : Steps sv s a s') :
    Tracks T s' := by
  cases hs with
  | start q =>
    refine ⟨fun j job hj => ?_, fun e he => Nat.lt_succ_of_lt (h.past e he), fun j job hj => ?_⟩
    · rw [Dict.lookup_insert] at hj
      split_ifs at hj with heq
      · exact heq ▸ Nat.lt_succ_self _
      · exact Nat.lt_succ_of_lt (h.id j job hj)
    · rw [Dict.lookup_insert] at hj
      split_ifs at hj with heq
      · rw [← Option.some.inj hj, heq]
        change T.Obeys (s.stateOf T s.nextJob q) _
        rw [h.stateOf_new]
        exact hfits
      · exact h.obeys j job hj
  | go j i q c k hj =>
    refine ⟨fun j' job hj' => ?_, fun e he => ?_, fun j' job hj' => ?_⟩
    · rw [lookup_perform] at hj'
      split_ifs at hj' with heq
      · exact heq ▸ h.id j _ hj
      · exact h.id j' job hj'
    · rcases List.mem_cons.mp he with rfl | he
      · exact h.id j _ hj
      · exact h.past e he
    · rw [lookup_perform] at hj'
      rw [stateOf_perform]
      by_cases heq : j' = j
      · subst heq
        rw [if_pos rfl] at hj' ⊢
        cases hj'
        exact (T.obeys_call.mp (h.obeys j' _ hj)).2 _ (hfits q c k hj)
      · rw [if_neg heq] at hj'
        rw [if_neg fun h => heq h.symm]
        exact h.obeys j' job hj'
  | drop j =>
    have hlookup : ∀ j' job, (s.jobs.erase j).lookup j' = some job →
        s.jobs.lookup j' = some job := by
      intro j' job hj'
      rw [Dict.lookup_erase] at hj'
      split_ifs at hj'
      exact hj'
    exact ⟨fun j' job hj' => h.id j' job (hlookup j' job hj'), h.past,
      fun j' job hj' => h.obeys j' job (hlookup j' job hj')⟩
  | tick d => exact ⟨h.id, h.past, h.obeys⟩

theorem Tracks.allows (h : Tracks T s)
    (hj : s.jobs.lookup j = some ⟨q, .call c k⟩) : T.allows (s.stateOf T j q) c :=
  (T.obeys_call.mp (h.obeys j _ hj)).1

theorem Tracks.ends (h : Tracks T s) {a : α}
    (hj : s.jobs.lookup j = some ⟨q, .ret a⟩) : T.ends (s.stateOf T j q) a :=
  h.obeys j _ hj

/-! ## Counting jobs -/

def countIn (T : Typestate Q C R α L) (s : Pool W Q C R α) (p : L → Bool) : ℕ :=
  s.jobs.entries.countP fun e => p (s.stateOf T e.1 e.2.request)

theorem countIn_perform (hj : s.jobs.lookup j = some ⟨q, .call c k⟩) :
    (s.perform sv j q c k i).countIn T p + (if p (s.stateOf T j q) then 1 else 0) = s.countIn T p +
        if p (T.next (s.stateOf T j q) c (sv.exec s.world s.clock c i).2) then 1 else 0 := by
  have h := Dict.countP_insert (w := ⟨q, k (sv.exec s.world s.clock c i).2⟩) hj
    (p := fun e => p (s.stateOf T e.1 e.2.request))
    (r := fun e => p ((s.perform sv j q c k i).stateOf T e.1 e.2.request)) fun e he => by
      rw [stateOf_perform, if_neg he.symm]
  rw [stateOf_perform, if_pos rfl] at h
  exact h

theorem countIn_start (h : Tracks T s) (hp : p (T.init q) = false) : countIn T { s with
      jobs := s.jobs.insert s.nextJob ⟨q, sv.handler q⟩
      nextJob := s.nextJob + 1 } p = s.countIn T p := by
  refine Dict.countP_insert_new ?_ ?_
  · rcases hl : s.jobs.lookup s.nextJob with - | job
    · rfl
    · exact absurd (h.id _ job hl) (Nat.lt_irrefl _)
  · change p (s.stateOf T s.nextJob q) = false
    rw [h.stateOf_new, hp]

theorem countIn_drop
    (hp : ∀ job, s.jobs.lookup j = some job → p (s.stateOf T j job.request) = false) :
    countIn T { s with jobs := s.jobs.erase j } p = s.countIn T p := by
  unfold countIn
  rw [List.countP_eq_length_filter, List.countP_eq_length_filter]
  exact congrArg List.length (Dict.filter_erase _ hp)

end Pool

end Nullnet.Lib
