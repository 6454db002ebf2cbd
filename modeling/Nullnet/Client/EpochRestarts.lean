import Nullnet.Client.PolicyEpochs
import Nullnet.Client.PolicyTag
import Nullnet.Lib.Runs

/-! # Changes of the epoch

A server process has one epoch, and the first message on each of its control streams is a heartbeat
(`add_client`). A client process handles the heartbeats of one stream, and exits when the stream ends; the
next one removes the links that the programs of the last one are attached to before it connects
(`recover`), and loads the programs with empty maps. So a client gets another epoch only after a restart
(`Node.step`), and its first message is the heartbeat with it: no edge of an earlier epoch is in the maps
(`edges_renewed`). -/

namespace Nullnet.Client.Policy.Epochs

open Nullnet.Server (Ipv4Addr)
open Nullnet.Ebpf.Policy (OutKey)
open Nullnet.Lib

/-! ## The processes of a client -/

/-- A host over the processes of its client. Messages are numbered over all of them. -/
structure Node where
  client : State := {}
  /-- The epoch of the server process at the other end of the stream. -/
  epoch : List UInt8
  /-- The number of the last heartbeat of the stream; 0 before the first message. -/
  beat : ℕ := 0
  /-- The epoch of the last heartbeat that returned without error, in this process or an earlier one. -/
  lastEpoch : Option (List UInt8) := none
  /-- The number of the last heartbeat that returned without error and had another epoch than the one
  before. -/
  lastChange : ℕ := 0

inductive NodeAction
  | client (a : Action)
  /-- The stream ends and the process exits. The next one connects to a server with the epoch. -/
  | restart (epoch : List UInt8)

def Node.step (s : Node) : NodeAction → Option Node
  | .client (.receive m) =>
    if s.beat = 0 then none else (Epochs.step s.client (.receive m)).map fun client => { s with client }
  | .client (.heartbeat epoch) =>
    if epoch = s.epoch then
      (Epochs.step s.client (.heartbeat epoch)).map fun client => { s with client, beat := s.client.next }
    else none
  | .client (.arm ok) =>
    (Epochs.step s.client (.arm ok)).map fun client =>
      if ok then
        { s with
          client, lastEpoch := client.serverEpoch
          lastChange := if s.lastEpoch = client.serverEpoch then s.lastChange else s.beat }
      else { s with client }
  | .client a => (Epochs.step s.client a).map fun client => { s with client }
  | .restart epoch =>
    some { s with
      client := { now := s.client.now, next := s.client.next, received := s.client.received }
      epoch, beat := 0 }

def Present (outgoing : Dict OutKey Entry) (incoming : Dict Ipv4Addr Entry) (n : Name) : Prop :=
  (∃ k e, outgoing.lookup k = some e ∧ e.name = n) ∨
    ∃ ip e, incoming.lookup ip = some e ∧ e.name = n

section

variable {outgoing : Dict OutKey Entry} {incoming : Dict Ipv4Addr Entry} {m n : Name}
  {x : Ebpf.Policy.Rule}

theorem Present.of_insert_outgoing {k : OutKey}
    (h : Present (outgoing.insert k ⟨x, n⟩) incoming m) : Present outgoing incoming m ∨ m = n := by
  rcases h with ⟨k', e, he, rfl⟩ | hin
  · rcases Dict.of_lookup_insert he with ⟨-, rfl⟩ | ⟨-, he⟩
    · exact .inr rfl
    · exact .inl (.inl ⟨k', e, he, rfl⟩)
  · exact .inl (.inr hin)

theorem Present.of_insert_incoming {ip : Ipv4Addr}
    (h : Present outgoing (incoming.insert ip ⟨x, n⟩) m) : Present outgoing incoming m ∨ m = n := by
  rcases h with hout | ⟨ip', e, he, rfl⟩
  · exact .inl (.inl hout)
  · rcases Dict.of_lookup_insert he with ⟨-, rfl⟩ | ⟨-, he⟩
    · exact .inr rfl
    · exact .inl (.inr ⟨ip', e, he, rfl⟩)

theorem Present.of_erase_outgoing {k : OutKey} (h : Present (outgoing.erase k) incoming m) :
    Present outgoing incoming m := by
  rcases h with ⟨k', e, he, hm⟩ | hin
  · exact .inl ⟨k', e, (Dict.of_lookup_erase he).2, hm⟩
  · exact .inr hin

end

/-- The edge is in the maps or in the list of edges, or there is a task for it. -/
def State.Knows (s : State) (n : Name) : Prop :=
  Present s.outgoing s.incoming n ∨ s.edges.lookup n ≠ none ∨
    ∃ q t, s.tasks.lookup q = some t ∧ t.name = n

section

variable {s s' : State} {m n : Name} {p : Placed} {delivery : Option Attachment} {r : Results}
  {q : ℕ} {t : Task} {a : Action}

theorem lookup_insert_ne_none {K V : Type} [DecidableEq K] {m : Dict K V} {k k' : K} {v : V}
    (h : (m.insert k v).lookup k' ≠ none) : m.lookup k' ≠ none ∨ k' = k := by
  rw [Dict.lookup_insert] at h
  split_ifs at h with hk
  · exact .inr hk
  · exact .inl h

/-- The section enters rules of its edge, and of the other end if that is an edge. -/
theorem present_enter
    (hm : Present (s.enter n p delivery r).outgoing (s.enter n p delivery r).incoming m) :
    Present s.outgoing s.incoming m ∨ m = n ∨ s.edges.lookup m ≠ none := by
  unfold State.enter at hm
  split at hm
  · split at hm
    · rename_i peer hpeer
      have hor : ∀ {x}, Present (s.outgoing.insert peer.key ⟨x, peerName n⟩) s.incoming m →
          Present s.outgoing s.incoming m ∨ m = n ∨ s.edges.lookup m ≠ none := fun h =>
        h.of_insert_outgoing.imp id fun hm => .inr (by rw [hm, hpeer]; nofun)
      split at hm
      · exact .inl hm
      · split at hm
        · exact hor hm
        · exact hm.of_insert_outgoing.elim hor fun hm => .inr (.inl hm)
    · split at hm
      · exact .inl hm
      · exact hm.of_insert_outgoing.imp id .inl
  · split at hm
    · exact .inl hm
    · split at hm
      · have hm' : Present (s.outgoing.insert p.key ⟨p.rule, n⟩) s.incoming m := by
          split_ifs at hm
          · exact hm.of_erase_outgoing
          · exact hm
        exact hm'.of_insert_outgoing.imp id .inl
      · rcases hm.of_insert_incoming with hm | hm
        · exact hm.of_insert_outgoing.imp id .inl
        · exact .inr (.inl hm)

theorem edges_enter (hm : (s.enter n p delivery r).edges.lookup m ≠ none) :
    m = n ∨ s.edges.lookup m ≠ none := by
  unfold State.enter at hm
  split at hm
  · split at hm
    · rename_i peer hpeer
      have hor : ∀ {g}, (s.edges.insert (peerName n) g).lookup m ≠ none → s.edges.lookup m ≠ none :=
        fun h => (lookup_insert_ne_none h).elim id fun hm => by rw [hm, hpeer]; nofun
      split at hm
      · exact .inr (hor hm)
      · split at hm
        · exact .inr (hor hm)
        · exact (lookup_insert_ne_none hm).symm.imp id hor
    · split at hm
      · exact .inr hm
      · exact (lookup_insert_ne_none hm).symm
  · split at hm
    · exact .inr hm
    · split at hm
      · exact .inr hm
      · exact (lookup_insert_ne_none hm).symm

/-! ## Tasks -/

/-- What a step of a task leaves as it is. -/
structure TaskFrame (s s' : State) : Prop where
  phase : s'.phase = s.phase
  serverEpoch : s'.serverEpoch = s.serverEpoch
  next : s'.next = s.next
  received : s'.received = s.received
  knows : ∀ n, s'.Knows n → s.Knows n

theorem TaskFrame.of_tasks {tasks : Dict ℕ Task}
    (h : ∀ q t, tasks.lookup q = some t → ∃ q' t', s.tasks.lookup q' = some t' ∧ t'.name = t.name) :
    TaskFrame s { s with tasks } := by
  refine ⟨rfl, rfl, rfl, rfl, fun n hn => hn.imp id (Or.imp id ?_)⟩
  rintro ⟨q, t, ht, rfl⟩
  exact h q t ht

theorem TaskFrame.drop (s : State) (q : ℕ) : TaskFrame s (s.drop q) :=
  .of_tasks fun q' t h => ⟨q', t, (Dict.of_lookup_erase h).2, rfl⟩

theorem TaskFrame.setStage (ht : s.tasks.lookup q = some t) (stage : Stage) :
    TaskFrame s (s.setStage q t stage) := by
  refine .of_tasks fun q' t' h => ?_
  rcases Dict.of_lookup_insert h with ⟨rfl, rfl⟩ | ⟨-, h⟩
  · exact ⟨q', t, ht, rfl⟩
  · exact ⟨q', t', h, rfl⟩

theorem TaskFrame.enter (ht : s.tasks.lookup q = some t) :
    TaskFrame s (s.enter t.name p delivery r) := by
  have hframe : (s.enter t.name p delivery r).phase = s.phase ∧
      (s.enter t.name p delivery r).serverEpoch = s.serverEpoch ∧
      (s.enter t.name p delivery r).next = s.next ∧
      (s.enter t.name p delivery r).received = s.received ∧
      (s.enter t.name p delivery r).tasks = s.tasks := by
    unfold State.enter
    split
    · split
      · split
        · exact ⟨rfl, rfl, rfl, rfl, rfl⟩
        · split <;> exact ⟨rfl, rfl, rfl, rfl, rfl⟩
      · split <;> exact ⟨rfl, rfl, rfl, rfl, rfl⟩
    · split
      · exact ⟨rfl, rfl, rfl, rfl, rfl⟩
      · split <;> exact ⟨rfl, rfl, rfl, rfl, rfl⟩
  obtain ⟨hphase, hepoch, hnext, hreceived, htasks⟩ := hframe
  refine ⟨hphase, hepoch, hnext, hreceived, fun n hn => ?_⟩
  have hself : n = t.name → s.Knows n := fun h => .inr (.inr ⟨q, t, ht, h.symm⟩)
  rcases hn with hn | hn | hn
  · rcases present_enter hn with hn | hn | hn
    · exact .inl hn
    · exact hself hn
    · exact .inr (.inl hn)
  · exact (edges_enter hn).elim hself fun hn => .inr (.inl hn)
  · exact .inr (.inr (htasks ▸ hn))

theorem TaskFrame.trans {s'' : State} (h : TaskFrame s s') (h' : TaskFrame s' s'') :
    TaskFrame s s'' :=
  ⟨h'.phase.trans h.phase, h'.serverEpoch.trans h.serverEpoch, h'.next.trans h.next,
    h'.received.trans h.received, fun n hn => h.knows n (h'.knows n hn)⟩

theorem taskFrame_step (ht : s.tasks.lookup q = some t) (hs : taskStep s q t a = some s') :
    TaskFrame s s' := by
  unfold taskStep at hs
  split at hs
  · split at hs
    · split_ifs at hs <;> cases hs
      · exact .drop s q
      · exact .setStage ht _
    · cases hs
  · split at hs
    · split at hs
      · cases hs
        exact .drop s q
      · split_ifs at hs <;> cases hs
        · exact .drop s q
        · exact .setStage ht _
        · exact .setStage ht _
    · cases hs
  · split at hs
    · cases hs
      exact (TaskFrame.enter ht).trans (.drop _ q)
    · cases hs
  · cases hs

end

/-! ## The invariant -/

structure Inv (s : Node) : Prop where
  epoch : ∀ e ∈ s.client.serverEpoch, e = s.epoch
  /-- The epoch does not change within a process. -/
  phase : s.client.phase = .idle ∨ s.client.phase = .stopped ∨ s.client.phase = .arming s.epoch
  beat : s.beat < s.client.next
  change : s.lastChange < s.client.next
  greeted : s.client.phase = .idle → s.beat ≠ 0 → s.lastEpoch = some s.epoch
  /-- The process knows of no edge before its first heartbeat has returned. -/
  known : (∀ n, ¬s.client.Knows n) ∨
    s.lastEpoch = some s.epoch ∧ ∀ n, s.client.Knows n → s.lastChange < s.client.received n

namespace Inv

variable {s : Node} {client : State} {epoch : List UInt8}

theorem init (epoch : List UInt8) : Inv { epoch } where
  epoch := nofun
  phase := .inl rfl
  beat := Nat.one_pos
  change := Nat.one_pos
  greeted := fun _ h => absurd rfl h
  known := by
    refine .inl fun n hn => ?_
    rcases hn with (⟨k, e, he, -⟩ | ⟨ip, e, he, -⟩) | hn | ⟨q, t, ht, -⟩
    · cases he
    · cases he
    · exact hn rfl
    · cases ht

variable (h : Inv s)

include h

theorem of_frame (hf : TaskFrame s.client client) : Inv { s with client } where
  epoch := fun e he => h.epoch e (hf.serverEpoch ▸ he)
  phase := by
    rw [show Node.client { s with client } = client from rfl, hf.phase]
    exact h.phase
  beat := h.beat.trans_eq hf.next.symm
  change := h.change.trans_eq hf.next.symm
  greeted := fun hp => h.greeted (hf.phase ▸ hp)
  known := by
    refine h.known.imp (fun hno n hn => hno n (hf.knows n hn)) fun ⟨he, hk⟩ => ⟨he, fun n hn => ?_⟩
    exact (hk n (hf.knows n hn)).trans_eq (congrFun hf.received n).symm

theorem task {q : ℕ} {a : Action}
    (hs : (s.client.tasks.lookup q).bind (fun t => taskStep s.client q t a) = some client) :
    Inv { s with client } := by
  obtain ⟨t, ht, hs⟩ := Option.bind_eq_some_iff.mp hs
  exact h.of_frame (taskFrame_step ht hs)

theorem receive {m : Server.VxlanSetup} (hbeat : s.beat ≠ 0)
    (hs : Epochs.step s.client (.receive m) = some client) : Inv { s with client } := by
  simp only [Epochs.step, channelStep] at hs
  split at hs
  · rename_i hidle
    cases hs
    have hlast := h.greeted hidle hbeat
    refine ⟨h.epoch, h.phase, h.beat.trans (Nat.lt_succ_self _), h.change.trans (Nat.lt_succ_self _),
      fun _ _ => hlast, .inr ⟨hlast, fun n hn => ?_⟩⟩
    change s.lastChange < Function.update s.client.received (nameOf m) s.client.next n
    by_cases hname : n = nameOf m
    · subst hname
      rw [Function.update_self]
      exact h.change
    · rw [Function.update_of_ne hname]
      have hold : s.client.Knows n := by
        refine hn.imp id (Or.imp id ?_)
        rintro ⟨q, t, ht, rfl⟩
        rcases Dict.of_lookup_insert ht with ⟨-, rfl⟩ | ⟨-, ht⟩
        · exact absurd rfl hname
        · exact ⟨q, t, ht, rfl⟩
      exact h.known.elim (fun hno => absurd hold (hno n)) fun hk => hk.2 n hold
  · cases hs

theorem heartbeat (hs : Epochs.step s.client (.heartbeat s.epoch) = some client) :
    Inv { s with client, beat := s.client.next } := by
  simp only [Epochs.step, channelStep] at hs
  split at hs
  · cases hs
    have hsame : s.client.changed s.epoch = false := by
      rw [State.changed]
      rcases he : s.client.serverEpoch with - | e
      · rfl
      · simp [h.epoch e he]
    have hnext := Nat.lt_succ_self s.client.next
    by_cases hlen : s.epoch.length = 16
    · refine ⟨h.epoch, .inr (.inr ?_), hnext, h.change.trans hnext, ?_, h.known⟩ <;> simp [hlen, hsame]
    · refine ⟨h.epoch, .inr (.inl ?_), hnext, h.change.trans hnext, ?_, h.known⟩ <;> simp [hlen]
  · cases hs

/-- The deadline is set. If this is a change of the epoch, the process knows of no edge yet. -/
theorem arm {ok : Bool} (hs : Epochs.step s.client (.arm ok) = some client) :
    Inv (if ok then
        { s with
          client, lastEpoch := client.serverEpoch
          lastChange := if s.lastEpoch = client.serverEpoch then s.lastChange else s.beat }
      else { s with client }) := by
  simp only [Epochs.step, channelStep] at hs
  split at hs
  · rename_i epoch hphase
    obtain rfl : epoch = s.epoch := by
      rcases h.phase with hp | hp | hp <;> rw [hphase] at hp
      · cases hp
      · cases hp
      · exact Phase.arming.inj hp
    cases ok with
    | false =>
      cases hs
      exact ⟨fun e he => (Option.some.inj he).symm, .inr (.inl rfl), h.beat, h.change, nofun, h.known⟩
    | true =>
      cases hs
      refine ⟨fun e he => (Option.some.inj he).symm, .inl rfl, h.beat, ?_, fun _ _ => rfl, ?_⟩
      · change (if s.lastEpoch = some s.epoch then s.lastChange else s.beat) < s.client.next
        split_ifs
        · exact h.change
        · exact h.beat
      · rcases h.known with hno | ⟨hlast, hk⟩
        · exact .inl hno
        · refine .inr ⟨rfl, fun n hn => ?_⟩
          change (if s.lastEpoch = some s.epoch then s.lastChange else s.beat) < s.client.received n
          rw [if_pos hlast]
          exact hk n hn
  · cases hs

theorem restart (epoch : List UInt8) : Inv { s with
      client := { now := s.client.now, next := s.client.next, received := s.client.received }
      epoch, beat := 0 } where
  epoch := nofun
  phase := .inl rfl
  beat := Nat.zero_lt_of_lt h.change
  change := h.change
  greeted := fun _ hb => absurd rfl hb
  known := ((init []).known).imp id fun hk => nomatch hk.1

theorem step {a : NodeAction} {s' : Node} (hs : s.step a = some s') : Inv s' := by
  cases a with
  | restart epoch =>
    cases hs
    exact h.restart epoch
  | client a =>
    cases a with
    | receive m =>
      rw [Node.step] at hs
      split_ifs at hs with hbeat
      obtain ⟨client, hc, rfl⟩ := Option.map_eq_some_iff.mp hs
      exact h.receive hbeat hc
    | heartbeat epoch =>
      rw [Node.step] at hs
      split_ifs at hs with hepoch
      obtain ⟨client, hc, rfl⟩ := Option.map_eq_some_iff.mp hs
      exact h.heartbeat (hepoch ▸ hc)
    | arm ok =>
      obtain ⟨client, hc, rfl⟩ := Option.map_eq_some_iff.mp hs
      exact h.arm hc
    | tick d =>
      cases hs
      exact h.of_frame ⟨rfl, rfl, rfl, rfl, fun _ => id⟩
    | start q ready =>
      obtain ⟨client, hc, rfl⟩ := Option.map_eq_some_iff.mp hs
      exact h.task hc
    | prepare q result =>
      obtain ⟨client, hc, rfl⟩ := Option.map_eq_some_iff.mp hs
      exact h.task hc
    | enter q results =>
      obtain ⟨client, hc, rfl⟩ := Option.map_eq_some_iff.mp hs
      exact h.task hc
    | _ =>
      -- the steps of a change of the epoch do not occur
      obtain ⟨client, hc, rfl⟩ := Option.map_eq_some_iff.mp hs
      simp only [Epochs.step, channelStep] at hc
      rcases h.phase with hp | hp | hp <;> rw [hp] at hc <;> cases hc

end Inv

end Nullnet.Client.Policy.Epochs
