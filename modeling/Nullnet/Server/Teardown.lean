import Nullnet.Lib.Dict
import Nullnet.Server.NetIdPool

/-! # Dismantling a network and recycling its id

`send_net_teardown_kind` tells both endpoints of a network to dismantle it, and returns the network
id to the pool once that has happened. It runs next to the control streams of the nodes: acks come
in, streams close, nodes reconnect, other messages wait for their own acks. The state `Control` has
what these share, and one task per call. Every `await` of the source ends a step. -/

namespace Nullnet.Server

open Nullnet.Lib

/-! ## The state -/

/-- An outbound channel of a control stream. -/
abbrev StreamId := ℕ

/-- A message id (a fresh UUID in the source). -/
abbrev MsgId := ℕ

/-- One endpoint of a network, as the loop of `send_net_teardown_kind` visits it. -/
structure Endpoint where
  dest : IpAddr
  remote : IpAddr
  side : String
  docker : Option String
  deriving DecidableEq

/-- A message for an endpoint, the stream it goes to, and the id that its ack must name. -/
structure PendingAck where
  dest : IpAddr
  msgId : MsgId
  outbound : StreamId
  message : NetMessage MsgId
  deriving DecidableEq

inductive Phase
  /-- The caller looks up the stream of the next endpoint. -/
  | preparing (todo : List Endpoint) (acks : List PendingAck)
  /-- The caller registers a message id for an endpoint that is connected. -/
  | registering (e : Endpoint) (outbound : StreamId) (todo : List Endpoint)
      (acks : List PendingAck)
  /-- The detached task sends the messages. -/
  | sending (todo sent : List PendingAck)
  /-- A send failed: its message id is removed. -/
  | unsending (msgId : MsgId) (todo sent : List PendingAck)
  /-- The task waits for the ack of the first message, or for its stream to close. -/
  | awaiting (todo : List PendingAck)
  /-- The sender of the first ack is gone: only the stream can end the wait. -/
  | awaitingClosed (a : PendingAck) (todo : List PendingAck)
  /-- The wait for a message has ended: its id is removed. -/
  | unregistering (msgId : MsgId) (todo : List PendingAck)
  /-- The id is back in the pool. -/
  | returned
  /-- The caller was dropped before it handed the teardown to a task. -/
  | dropped
  deriving DecidableEq

/-- A call of `send_net_teardown_kind`; `sentTo` records the messages that were sent. -/
structure Teardown where
  netId : ℕ
  group : Bool
  phase : Phase
  sentTo : List PendingAck
  deriving DecidableEq

/-- What the teardowns share with the control streams. -/
structure Control where
  /-- The stream of each connected node. -/
  clients : Dict IpAddr StreamId
  /-- The streams that are closed. -/
  closed : List StreamId
  /-- The message ids that wait for an ack. -/
  pending : List MsgId
  /-- The message ids whose waiter was told of the ack. -/
  fired : List MsgId
  /-- The message ids of other requests (`send_control`), which remove them again. -/
  controls : List MsgId
  pool : NetIdPool
  /-- Message ids from here on are unused. -/
  nextMsg : MsgId
  tasks : Dict ℕ Teardown
  /-- The acks that came in, with the node they came from. -/
  acks : List (IpAddr × MsgId)
  /-- The tasks that returned their id, last first. -/
  returns : List ℕ

inductive Move
  /-- The task goes on. -/
  | advance
  /-- The wait for an ack ends: the channel has a value, or its sender is gone. -/
  | receive
  /-- The stream of the message waited for is closed. -/
  | streamClosed
  /-- The grace period is over; that is only reported. -/
  | graceExpired
  /-- The caller is dropped. -/
  | drop

inductive ControlAction
  | connect (ip : IpAddr) (outbound : StreamId)
  | disconnect (ip : IpAddr)
  | close (outbound : StreamId)
  | ack (ip : IpAddr) (msgId : MsgId)
  | control
  | forget (msgId : MsgId)
  | allocate
  | start (task : ℕ) (client : IpAddr) (clientDocker : Option String) (server : IpAddr)
      (serverDocker : Option String) (netId : ℕ) (group : Bool)
  | task (task : ℕ) (move : Move)

namespace Control

def new : Control := ⟨∅, [], [], [], [], .new, 0, ∅, [], []⟩

/-! ## The steps -/

/-- The endpoints in the order in which the source visits them. -/
def endpoints (client : IpAddr) (clientDocker : Option String) (server : IpAddr)
    (serverDocker : Option String) : List Endpoint :=
  [⟨client, server, "c", clientDocker⟩, ⟨server, client, "s", serverDocker⟩]

def setTask (c : Control) (t : ℕ) (task : Teardown) : Control :=
  { c with tasks := c.tasks.insert t task }

/-- The task returns the id to the pool. -/
def returnId (net : Net) (c : Control) (t : ℕ) (task : Teardown) : Control :=
  { c with
    pool := c.pool.free net task.netId
    returns := t :: c.returns
    tasks := c.tasks.insert t { task with phase := .returned } }

/-- A step of task `t`. -/
def moveTask (net : Net) (c : Control) (t : ℕ) (task : Teardown) : Move → Option Control
  | .advance =>
    match task.phase with
    | .preparing [] [] => some (c.returnId net t task)
    | .preparing [] (a :: acks) => some (c.setTask t { task with phase := .sending (a :: acks) [] })
    | .preparing (e :: todo) acks =>
      match c.clients.lookup e.dest with
      | some outbound => some (c.setTask t { task with phase := .registering e outbound todo acks })
      | none => some (c.setTask t { task with phase := .preparing todo acks })
    | .registering e outbound todo acks =>
      let a : PendingAck := ⟨e.dest, c.nextMsg, outbound,
        net.teardown task.netId e.side e.docker e.dest e.remote none c.nextMsg task.group⟩
      some { c with
        pending := c.nextMsg :: c.pending
        nextMsg := c.nextMsg + 1
        tasks := c.tasks.insert t { task with phase := .preparing todo (acks ++ [a]) } }
    | .sending [] sent => some (c.setTask t { task with phase := .awaiting sent })
    | .sending (a :: todo) sent =>
      -- a send fails only on a closed stream
      if a.outbound ∈ c.closed then
        some (c.setTask t { task with phase := .unsending a.msgId todo sent })
      else
        some (c.setTask t
          { task with phase := .sending todo (sent ++ [a]), sentTo := task.sentTo ++ [a] })
    | .unsending msgId todo sent =>
      some { c with
        pending := c.pending.filter (· ≠ msgId)
        tasks := c.tasks.insert t { task with phase := .sending todo sent } }
    | .awaiting [] => some (c.returnId net t task)
    | .unregistering msgId todo =>
      some { c with
        pending := c.pending.filter (· ≠ msgId)
        tasks := c.tasks.insert t { task with phase := .awaiting todo } }
    | _ => none
  | .receive =>
    match task.phase with
    | .awaiting (a :: todo) =>
      if a.msgId ∈ c.fired then
        some (c.setTask t { task with phase := .unregistering a.msgId todo })
      else if a.msgId ∉ c.pending then
        some (c.setTask t { task with phase := .awaitingClosed a todo })
      else none
    | _ => none
  | .streamClosed =>
    match task.phase with
    | .awaiting (a :: todo) | .awaitingClosed a todo =>
      if a.outbound ∈ c.closed then
        some (c.setTask t { task with phase := .unregistering a.msgId todo })
      else none
    | _ => none
  | .graceExpired =>
    match task.phase with
    | .awaiting (_ :: _) | .awaitingClosed _ _ => some c
    | _ => none
  | .drop =>
    match task.phase with
    | .preparing _ _ | .registering _ _ _ _ => some (c.setTask t { task with phase := .dropped })
    | _ => none

def step (net : Net) (c : Control) : ControlAction → Option Control
  | .connect ip outbound => some { c with clients := c.clients.insert ip outbound }
  | .disconnect ip => some { c with clients := c.clients.erase ip }
  | .close outbound => some { c with closed := outbound :: c.closed }
  | .ack ip msgId =>
    let c := { c with acks := (ip, msgId) :: c.acks }
    if msgId ∈ c.pending then
      some { c with pending := c.pending.filter (· ≠ msgId), fired := msgId :: c.fired }
    else some c
  | .control =>
    some { c with
      pending := c.nextMsg :: c.pending
      controls := c.nextMsg :: c.controls
      nextMsg := c.nextMsg + 1 }
  | .forget msgId =>
    if msgId ∈ c.controls then some { c with pending := c.pending.filter (· ≠ msgId) } else none
  | .allocate => some { c with pool := (c.pool.allocate net).2 }
  | .start t client clientDocker server serverDocker netId group =>
    match c.tasks.lookup t with
    | some _ => none
    | none => some (c.setTask t ⟨netId, group,
        .preparing (endpoints client clientDocker server serverDocker) [], []⟩)
  | .task t move =>
    match c.tasks.lookup t with
    | some task => c.moveTask net t task move
    | none => none

/-! ## What a task waits for -/

/-- The messages that a task has sent and will still wait for. -/
def awaited : Phase → List PendingAck
  | .sending _ sent | .unsending _ _ sent => sent
  | .awaiting todo | .unregistering _ todo => todo
  | .awaitingClosed a todo => a :: todo
  | _ => []

/-- The message was acked, or the stream it was sent on is closed. -/
def Settled (c : Control) (a : PendingAck) : Prop := a.msgId ∈ c.fired ∨ a.outbound ∈ c.closed

/-- A task waits for what it sent and is not settled, and for nothing else. -/
structure TaskInv (c : Control) (task : Teardown) : Prop where
  waits : ∀ a ∈ task.sentTo, a ∈ awaited task.phase ∨ c.Settled a
  sent : ∀ a ∈ awaited task.phase, a ∈ task.sentTo

variable {c c' : Control} {net : Net} {t : ℕ} {task : Teardown} {a : PendingAck} {task' : Teardown}

theorem TaskInv.ended {netId : ℕ} {group : Bool} {todo sentTo : List PendingAck}
    (hw : ∀ b ∈ sentTo, b ∈ a :: todo ∨ c.Settled b) (hs : ∀ b ∈ a :: todo, b ∈ sentTo)
    (ha : c.Settled a) : TaskInv c ⟨netId, group, .unregistering a.msgId todo, sentTo⟩ where
  waits b hb := by
    rcases hw b hb with h | h
    · rcases List.mem_cons.mp h with rfl | h
      · exact .inr ha
      · exact .inl h
    · exact .inr h
  sent b hb := hs b (List.mem_cons_of_mem _ hb)

/-- The task `t` goes on and returns nothing. -/
structure Moved (c c' : Control) (t : ℕ) (task' : Teardown) : Prop where
  inv : TaskInv c task'
  phase : task'.phase ≠ .returned
  tasks : c'.tasks = c.tasks.insert t task'
  closed : c'.closed = c.closed
  fired : c'.fired = c.fired
  acks : c'.acks = c.acks
  returns : c'.returns = c.returns
  pool : c'.pool = c.pool

theorem moved (hi : TaskInv c task') (hp : task'.phase ≠ .returned) (t : ℕ)
    (pending : List MsgId) (nextMsg : MsgId) : Moved c { c with
      pending := pending, nextMsg := nextMsg, tasks := c.tasks.insert t task' } t task' :=
  ⟨hi, hp, rfl, rfl, rfl, rfl, rfl, rfl⟩

/-- **What one step of a task does**: it returns the id, which it does only if nothing is awaited,
or it goes to another phase, or nothing changes. -/
theorem moveTask_cases {mv : Move} (hi : TaskInv c task) (h : c.moveTask net t task mv = some c') :
    task.phase ≠ .returned ∧ (c' = c.returnId net t task ∧ awaited task.phase = [] ∨
      (∃ task', Moved c c' t task') ∨ c' = c) := by
  obtain ⟨netId, group, phase, sentTo⟩ := task
  have hw : ∀ a ∈ sentTo, a ∈ awaited phase ∨ c.Settled a := hi.waits
  have hs : ∀ a ∈ awaited phase, a ∈ sentTo := hi.sent
  have hne : phase ≠ .returned := by
    rintro rfl
    cases mv <;> simp [moveTask] at h
  refine ⟨hne, ?_⟩
  cases mv with
  | advance =>
    cases phase with
    | preparing todo acks =>
      rcases todo with - | ⟨e, todo⟩
      · rcases acks with - | ⟨a, acks⟩ <;> simp only [moveTask, Option.some.injEq] at h
        · exact .inl ⟨h.symm, rfl⟩
        · subst h
          exact .inr (.inl ⟨_, moved ⟨hw, by simp [awaited]⟩ (by simp) _ _ _⟩)
      · rcases hl : c.clients.lookup e.dest with - | outbound <;>
          simp only [moveTask, hl, Option.some.injEq] at h <;> subst h <;>
          exact .inr (.inl ⟨_, moved ⟨hw, hs⟩ (by simp) _ _ _⟩)
    | registering | unsending | unregistering =>
      simp only [moveTask, Option.some.injEq] at h
      subst h
      exact .inr (.inl ⟨_, moved ⟨hw, hs⟩ (by simp) _ _ _⟩)
    | sending todo sent =>
      rcases todo with - | ⟨a, todo⟩ <;> simp only [moveTask] at h
      · cases h
        exact .inr (.inl ⟨_, moved ⟨hw, hs⟩ (by simp) _ _ _⟩)
      · split_ifs at h <;> cases h
        · exact .inr (.inl ⟨_, moved ⟨hw, hs⟩ (by simp) _ _ _⟩)
        · -- the message goes out: from here on the task waits for it
          refine .inr (.inl ⟨_, moved ⟨?_, ?_⟩ (by simp) _ _ _⟩)
          · simp only [awaited, List.mem_append, List.mem_singleton] at hw ⊢
            rintro b (hb | hb)
            · exact (hw b hb).imp_left .inl
            · exact .inl (.inr hb)
          · simp only [awaited, List.mem_append, List.mem_singleton] at hs ⊢
            exact fun b hb => hb.imp_left (hs b)
    | awaiting todo =>
      rcases todo with - | ⟨a, todo⟩ <;> simp only [moveTask, Option.some.injEq] at h
      · exact .inl ⟨h.symm, rfl⟩
      · cases h
    | _ => simp [moveTask] at h
  | receive =>
    cases phase with
    | awaiting todo =>
      rcases todo with - | ⟨a, todo⟩ <;> simp only [moveTask] at h
      · cases h
      · split_ifs at h with hf hp <;> cases h
        · exact .inr (.inl ⟨_, moved (.ended hw hs (.inl hf)) (by simp) _ _ _⟩)
        · exact .inr (.inl ⟨_, moved ⟨hw, hs⟩ (by simp) _ _ _⟩)
    | _ => simp [moveTask] at h
  | streamClosed =>
    cases phase with
    | awaiting todo =>
      rcases todo with - | ⟨a, todo⟩ <;> simp only [moveTask] at h
      · cases h
      · split_ifs at h with hc
        cases h
        exact .inr (.inl ⟨_, moved (.ended hw hs (.inr hc)) (by simp) _ _ _⟩)
    | awaitingClosed a todo =>
      simp only [moveTask] at h
      split_ifs at h with hc
      cases h
      exact .inr (.inl ⟨_, moved (.ended hw hs (.inr hc)) (by simp) _ _ _⟩)
    | _ => simp [moveTask] at h
  | graceExpired =>
    refine .inr (.inr ?_)
    simp only [moveTask] at h
    split at h <;> first | exact (Option.some.inj h).symm | cases h
  | drop =>
    cases phase with
    | preparing | registering =>
      simp only [moveTask, Option.some.injEq] at h
      subst h
      exact .inr (.inl ⟨_, moved ⟨hw, hs⟩ (by simp) _ _ _⟩)
    | _ => simp [moveTask] at h

/-! ## The invariant -/

/-- **The invariant**: the tasks wait for what they must, a task that returned its id has ended, no
task did so twice, and a waiter was told of an ack only by an ack. -/
structure Inv (c : Control) : Prop where
  tasks : ∀ t task, c.tasks.lookup t = some task → TaskInv c task
  nodup : c.returns.Nodup
  returned : ∀ t ∈ c.returns, ∃ task, c.tasks.lookup t = some task ∧ task.phase = .returned
  fired : ∀ m ∈ c.fired, ∃ ip, (ip, m) ∈ c.acks

theorem inv_new : Inv .new where
  tasks t task h := by simp [new] at h
  nodup := List.nodup_nil
  returned := by simp [new]
  fired := by simp [new]

theorem TaskInv.mono (h : TaskInv c task)
    (hf : ∀ m ∈ c.fired, m ∈ c'.fired) (hc : ∀ o ∈ c.closed, o ∈ c'.closed) : TaskInv c' task :=
  ⟨fun a ha => (h.waits a ha).imp_right fun hs => hs.imp (hf _) (hc _), h.sent⟩

theorem Inv.env (hi : Inv c) (ht : c'.tasks = c.tasks) (hr : c'.returns = c.returns)
    (hf : ∀ m ∈ c.fired, m ∈ c'.fired) (hc : ∀ o ∈ c.closed, o ∈ c'.closed)
    (ha : ∀ m ∈ c'.fired, ∃ ip, (ip, m) ∈ c'.acks) : Inv c' where
  tasks t task h := (hi.tasks t task (ht ▸ h)).mono hf hc
  nodup := hr ▸ hi.nodup
  returned := by rw [ht, hr]; exact hi.returned
  fired := ha

theorem Inv.insert (hi : Inv c) (hm : Moved c c' t task') (hr : t ∉ c.returns) : Inv c' where
  tasks t' task h := by
    have hmono : ∀ {task}, TaskInv c task → TaskInv c' task := fun h =>
      h.mono (fun m hm' => hm.fired ▸ hm') fun o ho => hm.closed ▸ ho
    rw [hm.tasks, Dict.lookup_insert] at h
    split_ifs at h with he
    · cases h
      exact hmono hm.inv
    · exact hmono (hi.tasks t' task h)
  nodup := hm.returns ▸ hi.nodup
  returned t' h := by
    rw [hm.returns] at h
    have hne : t' ≠ t := fun he => hr (he ▸ h)
    rw [hm.tasks, Dict.lookup_insert, if_neg hne]
    exact hi.returned t' h
  fired := by rw [hm.fired, hm.acks]; exact hi.fired

theorem Inv.returnId (hi : Inv c) (hl : c.tasks.lookup t = some task) (hr : t ∉ c.returns)
    (ha : awaited task.phase = []) : Inv (c.returnId net t task) where
  tasks t' task' h := by
    simp only [Control.returnId, Dict.lookup_insert] at h
    split_ifs at h with he
    · cases h
      refine ⟨fun a hsent => .inr ?_, by simp [awaited]⟩
      have hw := (hi.tasks t task hl).waits a hsent
      rw [ha] at hw
      exact hw.resolve_left List.not_mem_nil
    · exact (hi.tasks t' task' h).mono (fun _ => id) fun _ => id
  nodup := List.nodup_cons.mpr ⟨hr, hi.nodup⟩
  returned t' h := by
    simp only [Control.returnId, Dict.lookup_insert] at h ⊢
    split_ifs with he
    · exact ⟨_, rfl, rfl⟩
    · exact hi.returned t' ((List.mem_cons.mp h).resolve_left he)
  fired := hi.fired

theorem Inv.not_returned (hi : Inv c)
    (hl : c.tasks.lookup t = some task) (hp : task.phase ≠ .returned) : t ∉ c.returns := by
  intro hr
  obtain ⟨task', hl', hp'⟩ := hi.returned t hr
  cases hl.symm.trans hl'
  exact hp hp'

theorem Inv.step {a : ControlAction} (hi : Inv c) (h : c.step net a = some c') : Inv c' := by
  cases a with
  | connect ip outbound | disconnect ip | control | allocate =>
    simp only [Control.step, Option.some.injEq] at h
    subst h
    exact hi.env rfl rfl (fun _ => id) (fun _ => id) hi.fired
  | close outbound =>
    simp only [Control.step, Option.some.injEq] at h
    subst h
    exact hi.env rfl rfl (fun _ => id) (fun _ => List.mem_cons_of_mem _) hi.fired
  | ack ip msgId =>
    have hfired : ∀ m ∈ c.fired, ∃ j, (j, m) ∈ (ip, msgId) :: c.acks := fun m hm =>
      (hi.fired m hm).imp fun _ => List.mem_cons_of_mem _
    simp only [Control.step] at h
    split_ifs at h <;> cases h
    · refine hi.env rfl rfl (fun _ => List.mem_cons_of_mem _) (fun _ => id) fun m hm => ?_
      rcases List.mem_cons.mp hm with rfl | hm
      · exact ⟨ip, List.mem_cons_self⟩
      · exact hfired m hm
    · exact hi.env rfl rfl (fun _ => id) (fun _ => id) hfired
  | forget msgId =>
    simp only [Control.step] at h
    split_ifs at h
    cases h
    exact hi.env rfl rfl (fun _ => id) (fun _ => id) hi.fired
  | start t client clientDocker server serverDocker netId group =>
    rcases hl : c.tasks.lookup t with - | task <;>
      simp only [Control.step, hl, Option.some.injEq] at h
    · subst h
      refine hi.insert (moved ⟨by simp, by simp [awaited]⟩ (by simp) t _ _) fun hr => ?_
      obtain ⟨task, hl', -⟩ := hi.returned t hr
      cases hl.symm.trans hl'
    · cases h
  | task t mv =>
    rcases hl : c.tasks.lookup t with - | task <;> simp only [Control.step, hl] at h
    · cases h
    · obtain ⟨hp, hc⟩ := moveTask_cases (hi.tasks t task hl) h
      have hr := hi.not_returned hl hp
      rcases hc with ⟨rfl, ha⟩ | ⟨task', hm⟩ | rfl
      · exact hi.returnId hl hr ha
      · exact hi.insert hm hr
      · exact hi

theorem inv_of_reach (h : Reach (step net) anyStep .new c) : Inv c :=
  h.invariant _ inv_new fun _ _ _ hi _ hs => hi.step hs

/-! ## When an id is returned -/

/-- Nodes ack only what they were sent: an ack with the id of a sent message comes from the
endpoint of that message. -/
def Honest (c : Control) : Prop :=
  ∀ p ∈ c.acks, ∀ t task, c.tasks.lookup t = some task → ∀ a ∈ task.sentTo, a.msgId = p.2 →
    p.1 = a.dest

/-- The message was acked by some node, and by its endpoint if nodes ack only what they were sent;
or the stream it was sent on is closed. -/
def Confirmed (c : Control) (a : PendingAck) : Prop :=
  ((∃ ip, (ip, a.msgId) ∈ c.acks) ∧ (c.Honest → (a.dest, a.msgId) ∈ c.acks)) ∨
    a.outbound ∈ c.closed

theorem Inv.confirmed (hi : Inv c) (hl : c.tasks.lookup t = some task)
    (ha : awaited task.phase = []) (hs : a ∈ task.sentTo) : c.Confirmed a := by
  have hw := (hi.tasks t task hl).waits a hs
  rw [ha] at hw
  rcases hw.resolve_left List.not_mem_nil with hf | hc
  · obtain ⟨ip, hip⟩ := hi.fired _ hf
    refine .inl ⟨⟨ip, hip⟩, fun hh => ?_⟩
    have hd : ip = a.dest := hh _ hip t task hl a hs rfl
    rwa [← hd]
  · exact .inr hc

def ReturnsNothing (net : Net) (c c' : Control) : Prop :=
  c'.returns = c.returns ∧ (c'.pool = c.pool ∨ c'.pool = (c.pool.allocate net).2)

/-- The step returns the id of task `t`, for the first time and with all its messages confirmed. -/
def ReturnsId (net : Net) (c c' : Control) (t : ℕ) (task : Teardown) : Prop :=
  c.tasks.lookup t = some task ∧ t ∉ c.returns ∧ c'.returns = t :: c.returns ∧
    c'.pool = c.pool.free net task.netId ∧ ∀ a ∈ task.sentTo, c.Confirmed a

theorem Inv.returns_cases {a : ControlAction} (hi : Inv c)
    (h : c.step net a = some c') : ReturnsNothing net c c' ∨ ∃ t task, ReturnsId net c c' t task := by
  cases a with
  | task t mv =>
    rcases hl : c.tasks.lookup t with - | task <;> simp only [Control.step, hl] at h
    · cases h
    · obtain ⟨hp, hc⟩ := moveTask_cases (hi.tasks t task hl) h
      rcases hc with ⟨rfl, ha⟩ | ⟨task', hm⟩ | rfl
      · exact .inr ⟨t, task, hl, hi.not_returned hl hp, rfl, rfl, fun a => hi.confirmed hl ha⟩
      · exact .inl ⟨hm.returns, .inl hm.pool⟩
      · exact .inl ⟨rfl, .inl rfl⟩
  | start t client clientDocker server serverDocker netId group =>
    rcases hl : c.tasks.lookup t with - | task <;>
      simp only [Control.step, hl, Option.some.injEq] at h
    · subst h; exact .inl ⟨rfl, .inl rfl⟩
    · cases h
  | allocate =>
    simp only [Control.step, Option.some.injEq] at h
    subst h
    exact .inl ⟨rfl, .inr rfl⟩
  | ack ip msgId | forget msgId =>
    simp only [Control.step] at h
    split_ifs at h <;> rw [Option.some.injEq] at h <;> subst h <;> exact .inl ⟨rfl, .inl rfl⟩
  | _ =>
    simp only [Control.step, Option.some.injEq] at h
    subst h
    exact .inl ⟨rfl, .inl rfl⟩

theorem Inv.awaited_nil (hi : Inv c)
    (hl : c.tasks.lookup t = some task) (hs : task.sentTo = []) : awaited task.phase = [] := by
  rw [List.eq_nil_iff_forall_not_mem]
  intro a ha
  have := (hi.tasks t task hl).sent a ha
  simp [hs] at this

theorem moveTask_isSome (hcl : c'.clients = c.clients) (hcd : c'.closed = c.closed)
    (hm : ∀ a ∈ awaited task.phase, (a.msgId ∈ c'.fired ↔ a.msgId ∈ c.fired) ∧
      (a.msgId ∈ c'.pending ↔ a.msgId ∈ c.pending)) (mv : Move) :
    (c'.moveTask net t task mv).isSome = (c.moveTask net t task mv).isSome := by
  obtain ⟨netId, group, phase, sentTo⟩ := task
  cases mv with
  | receive =>
    cases phase with
    | awaiting todo =>
      rcases todo with - | ⟨a, todo⟩
      · rfl
      · obtain ⟨hf, hp⟩ := hm a (by simp [awaited])
        simp only [moveTask, hf, hp]
        split_ifs <;> rfl
    | _ => rfl
  | advance =>
    cases phase with
    | preparing todo acks =>
      rcases todo with - | ⟨e, todo⟩
      · rcases acks <;> rfl
      · rcases hl : c.clients.lookup e.dest <;> simp [moveTask, hcl, hl]
    | sending todo sent =>
      rcases todo with - | ⟨a, todo⟩
      · rfl
      · by_cases hc : a.outbound ∈ c.closed <;> simp [moveTask, hcd, hc]
    | awaiting todo => rcases todo <;> rfl
    | _ => rfl
  | streamClosed =>
    cases phase with
    | awaiting todo =>
      rcases todo with - | ⟨a, todo⟩
      · rfl
      · by_cases hc : a.outbound ∈ c.closed <;> simp [moveTask, hcd, hc]
    | awaitingClosed a todo => by_cases hc : a.outbound ∈ c.closed <;> simp [moveTask, hcd, hc]
    | _ => rfl
  | graceExpired =>
    cases phase with
    | awaiting todo => rcases todo <;> rfl
    | _ => rfl
  | drop => cases phase <;> rfl

theorem ack_other {ip : IpAddr} {msgId : MsgId} (h : c.step net (.ack ip msgId) = some c') :
    ReturnsNothing net c c' ∧ ∀ t task, c.tasks.lookup t = some task →
      (∀ a ∈ awaited task.phase, a.msgId ≠ msgId) →
      ∀ mv, (c'.step net (.task t mv)).isSome = (c.step net (.task t mv)).isSome := by
  simp only [Control.step] at h
  split_ifs at h <;> rw [Option.some.injEq] at h <;> subst h <;>
    refine ⟨⟨rfl, .inl rfl⟩, fun t task hl hm mv => ?_⟩ <;> simp only [Control.step, hl]
  · exact moveTask_isSome (by rfl) (by rfl) (fun a ha => by simp [hm a ha]) mv
  · exact moveTask_isSome (by rfl) (by rfl) (fun a _ => by simp) mv

end Control

/-- **Recycling a network id.** In every reachable state, each teardown has returned its id at most
once. A step that returns an id does so for the first time, and only when every message that was
sent is acked or was sent on a stream that is closed. A teardown that sent nothing waits for
nothing, and returns its id in its next step once no endpoint is left. An ack by itself returns no
id, and does not let a teardown go on that does not wait for the acked message. -/
theorem teardown_return (net : Net) (c : Control)
    (h : Reach (Control.step net) anyStep .new c) :
    (∀ t, c.returns.count t ≤ 1) ∧
    (∀ a c', c.step net a = some c' →
      c.ReturnsNothing net c' ∨ ∃ t task, c.ReturnsId net c' t task) ∧
    (∀ t task, c.tasks.lookup t = some task →
      (task.sentTo = [] → Control.awaited task.phase = []) ∧
      (task.phase = .preparing [] [] ∨ task.phase = .awaiting [] →
        c.step net (.task t .advance) = some (c.returnId net t task))) ∧
    ∀ ip msgId c', c.step net (.ack ip msgId) = some c' →
      c.ReturnsNothing net c' ∧ ∀ t task, c.tasks.lookup t = some task →
        (∀ a ∈ Control.awaited task.phase, a.msgId ≠ msgId) →
        ∀ mv, (c'.step net (.task t mv)).isSome = (c.step net (.task t mv)).isSome := by
  have hi := Control.inv_of_reach h
  refine ⟨List.nodup_iff_count_le_one.mp hi.nodup, fun a c' => hi.returns_cases,
    fun t task hl => ⟨hi.awaited_nil hl, fun hp => ?_⟩, fun ip msgId c' => Control.ack_other⟩
  rcases hp with hp | hp <;> simp [Control.step, hl, Control.moveTask, hp]

/-- Both endpoints are connected; one acks, the stream of the other closes. -/
def recycleRun : List ControlAction :=
  [.connect (.v4 1) 0, .connect (.v4 2) 1, .allocate, .start 0 (.v4 1) none (.v4 2) none 101 false,
    .task 0 .advance, .task 0 .advance, .task 0 .advance, .task 0 .advance, .task 0 .advance,
    .task 0 .advance, .task 0 .advance, .task 0 .advance, .ack (.v4 1) 0, .ack (.v4 2) 7,
    .task 0 .receive, .task 0 .advance, .close 1, .task 0 .streamClosed, .task 0 .advance,
    .task 0 .advance]

/-- The state after `recycleRun`. -/
def recycled : Control := (run (Control.step .vlan) .new recycleRun).getD .new

theorem teardown_return_recycled : run (Control.step .vlan) .new recycleRun = some recycled ∧
    recycled.returns = [0] ∧ recycled.pool.freed = [101] ∧
    ∀ t, recycled.returns.count t ≤ 1 := by
  have hr : run (Control.step .vlan) .new recycleRun = some recycled := by rfl
  exact ⟨hr, by rfl, by rfl, (teardown_return .vlan recycled (reach_of_run hr)).1⟩

end Nullnet.Server
