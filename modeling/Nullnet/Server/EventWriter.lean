import Nullnet.Lib.Channel
import Nullnet.Lib.Runs

/-! # The writer of the event log

Events are sent to a writer through a bounded channel, and dropped if it is full. The writer takes them in
batches and inserts each batch in one transaction, which it repeats until it succeeds. Dropped events are
counted; the writer takes the count with each batch and adds an event of its own that says how many were
dropped.

Events have the numbers of their sends. An overflow event carries, besides the total, the numbers of the
events that are counted in it, and so does the counter. -/

namespace Nullnet.Server.EventLog

open Nullnet.Lib

def QUEUE_CAPACITY : ℕ := 32768

def BATCH_SIZE : ℕ := 512

/-- Events of the table: those given to the writer, and its own. -/
inductive Row (E : Type)
  | given (number : ℕ) (event : E)
  | overflow (dropped timestamp : ℕ) (which : List ℕ)
  | failed (message : String) (queued timestamp : ℕ)
  | recovered (queued timestamp : ℕ)
  deriving DecidableEq

namespace Row

variable {E : Type}

def item : Row E → Option (ℕ × E)
  | given number event => some (number, event)
  | _ => none

def reports : Row E → List ℕ
  | overflow _ _ which => which
  | _ => []

end Row

/-- The first error of a batch. -/
structure Failure where
  message : String
  queued : ℕ
  timestamp : ℕ
  deriving DecidableEq

/-- The report that a batch with errors is inserted after all. -/
structure Recovery where
  queued : ℕ
  timestamp : ℕ
  deriving DecidableEq

inductive Phase (E : Type)
  | waiting
  /-- A batch was received; its places in the channel are not free yet. -/
  | received (events : List (Row E))
  | drained (events : List (Row E))
  | persisting (events : List (Row E)) (failure : Option Failure)
  | inserting (events : List (Row E)) (failure : Option Failure) (recovered : Option Recovery)

def Phase.rows {E : Type} : Phase E → List (Row E)
  | waiting => []
  | received events | drained events | persisting events _ | inserting events _ _ => events

structure Writer (E : Type) where
  channel : Channel (ℕ × E) QUEUE_CAPACITY := .empty
  /-- The counter of dropped events. -/
  dropped : ℕ := 0
  phase : Phase E := .waiting
  db : List (Row E) := []
  /-- The events that were given to the writer, in the order of their sends. -/
  emitted : List E := []
  /-- The events that are counted in `dropped`. -/
  counted : List ℕ := []
  /-- The events that did not fit into the channel and are not counted yet. -/
  counting : List ℕ := []

inductive Action (E : Type)
  /-- An event is emitted: it is sent, if there is a place in the channel. -/
  | emit (event : E)
  /-- The `emit` of an event that did not fit counts it, and returns. -/
  | count (number : ℕ)
  /-- `recv_many` takes some of the events. -/
  | receive (k : ℕ)
  /-- It frees their places. -/
  | release
  /-- The writer takes the count. -/
  | swap (now : ℕ)
  /-- It composes a batch. -/
  | attempt (now : ℕ)
  /-- The batch is inserted, or the transaction fails with a message. -/
  | insert (error : Option (String × ℕ))

namespace Writer

variable {E : Type}

/-- `Writer::emit`, up to the send. -/
def emit (s : Writer E) (event : E) : Writer E :=
  let number := s.emitted.length
  let s := { s with emitted := s.emitted ++ [event] }
  match s.channel.trySend (number, event) with
  | some channel => { s with channel := channel }
  | none => { s with counting := number :: s.counting }

/-- The steps of `run` and `persist`. -/
def step (s : Writer E) : Action E → Option (Writer E)
  | .emit event => some (s.emit event)
  | .count number =>
    if number ∈ s.counting then
      some { s with
        dropped := s.dropped + 1
        counted := number :: s.counted
        counting := s.counting.erase number }
    else none
  | .receive k =>
    match s.phase with
    | .waiting =>
      if 0 < k ∧ k ≤ BATCH_SIZE ∧ k ≤ s.channel.queue.length then
        some { s with
          channel := s.channel.receive k
          phase := .received ((s.channel.queue.take k).map fun m => .given m.1 m.2) }
      else none
    | _ => none
  | .release =>
    match s.phase with
    | .received events => some { s with channel := s.channel.release, phase := .drained events }
    | _ => none
  | .swap now =>
    match s.phase with
    | .drained events =>
      let events := if s.dropped > 0 then events ++ [.overflow s.dropped now s.counted] else events
      some { s with
        dropped := 0
        counted := []
        phase := if events.isEmpty then .waiting else .persisting events none }
    | _ => none
  | .attempt now =>
    match s.phase with
    | .persisting events failure =>
      let recovered := failure.map fun _ => ⟨events.length + s.channel.queue.length, now⟩
      some { s with phase := .inserting events failure recovered }
    | _ => none
  | .insert error =>
    match s.phase with
    | .inserting events failure recovered =>
      match error with
      | none =>
        some { s with
          db := s.db ++ (events ++
            (failure.toList.map fun f => .failed f.message f.queued f.timestamp) ++
            recovered.toList.map fun r => .recovered r.queued r.timestamp)
          phase := .waiting }
      | some (message, now) =>
        let first := failure.getD ⟨message, events.length + s.channel.queue.length, now⟩
        some { s with phase := .persisting events (some first) }
    | _ => none

/-! ## Where events are -/

def items (rows : List (Row E)) : List (ℕ × E) := rows.filterMap Row.item

def reported (rows : List (Row E)) : List ℕ := rows.flatMap Row.reports

def persisted (s : Writer E) : List (ℕ × E) := items s.db

/-- The events in the batch and in the channel. -/
def waiting (s : Writer E) : List (ℕ × E) := items s.phase.rows ++ s.channel.queue

/-- The dropped events that are reported, in the table or in the batch. -/
def overflowed (s : Writer E) : List ℕ := reported (s.db ++ s.phase.rows)

/-- How often an event is persisted, waiting, or counted as dropped. -/
def occurrences (s : Writer E) (n : ℕ) : ℕ :=
  (s.persisted.map Prod.fst).count n + (s.waiting.map Prod.fst).count n + s.overflowed.count n +
    s.counted.count n

/-- The events that are not dropped, in their order. -/
def line (s : Writer E) : List (ℕ × E) := s.persisted ++ s.waiting

def lost (s : Writer E) : List ℕ := s.overflowed ++ s.counted ++ s.counting

section

variable {s s' : Writer E} {events : List (Row E)} {p : Phase E}

theorem items_append (rows rows' : List (Row E)) : items (rows ++ rows') = items rows ++ items rows' :=
  List.filterMap_append

theorem reported_append (rows rows' : List (Row E)) :
    reported (rows ++ rows') = reported rows ++ reported rows' := List.flatMap_append

theorem items_given (l : List (ℕ × E)) : items (l.map fun m => .given m.1 m.2) = l := by
  rw [items, List.filterMap_map]
  exact List.filterMap_some

theorem reported_given (l : List (ℕ × E)) : reported (l.map fun m => Row.given m.1 m.2) = [] := by
  rw [reported, List.flatMap_map]
  exact List.flatMap_eq_nil_iff.mpr fun _ _ => rfl

theorem items_overflow (d t : ℕ) (w : List ℕ) : items [(.overflow d t w : Row E)] = [] := rfl

theorem reported_overflow (d t : ℕ) (w : List ℕ) : reported [(.overflow d t w : Row E)] = w :=
  List.append_nil w

structure Inv (s : Writer E) : Prop where
  occurs : ∀ n, (s.line.map Prod.fst).count n + s.lost.count n = if n < s.emitted.length then 1 else 0
  order : (s.line.map Prod.fst).Pairwise (· < ·)
  events : ∀ x ∈ s.line, s.emitted[x.1]? = some x.2
  dropped : s.dropped = s.counted.length
  totals : ∀ d t w, .overflow d t w ∈ s.db ++ s.phase.rows → d = w.length

theorem Inv.move (h : Inv s) (hemitted : s'.emitted = s.emitted) (hline : s'.line = s.line)
    (hlost : ∀ n, s'.lost.count n = s.lost.count n) (hdropped : s'.dropped = s'.counted.length)
    (htotals : ∀ d t w, .overflow d t w ∈ s'.db ++ s'.phase.rows → d = w.length) : Inv s' where
  occurs := fun n => by rw [hline, hlost, hemitted, h.occurs]
  order := hline ▸ h.order
  events := by
    rw [hline, hemitted]
    exact h.events
  dropped := hdropped
  totals := htotals

theorem Inv.lt_of_mem (h : Inv s) {n : ℕ} (hn : n ∈ s.line.map Prod.fst) : n < s.emitted.length := by
  have hcount := List.count_pos_iff.mpr hn
  have hoccurs := h.occurs n
  split_ifs at hoccurs with hlt
  · exact hlt
  · omega

theorem count_number (s : Writer E) (n : ℕ) : (if n < s.emitted.length + 1 then 1 else 0) =
      (if n < s.emitted.length then 1 else 0) + [s.emitted.length].count n := by
  rw [List.count_singleton]
  by_cases hn : n = s.emitted.length
  · simp [hn]
  · have : (s.emitted.length == n) = false := beq_false_of_ne (Ne.symm hn)
    simp only [this, Bool.false_eq_true, if_false, Nat.add_zero]
    split_ifs <;> omega

theorem Inv.emit (h : Inv s) (event : E) : Inv (s.emit event) := by
  have hkeep : ∀ x ∈ s.line, (s.emitted ++ [event])[x.1]? = some x.2 := fun x hx => by
    have hlt := h.lt_of_mem (List.mem_map_of_mem hx)
    rw [List.getElem?_append_left hlt, h.events x hx]
  unfold Writer.emit
  dsimp only
  split
  · next channel hsend =>
    obtain ⟨hqueue, -⟩ := Channel.trySend_some hsend
    have hline : ({ s with emitted := s.emitted ++ [event], channel := channel } : Writer E).line =
        s.line ++ [(s.emitted.length, event)] := by
      simp only [line, waiting, persisted, hqueue, List.append_assoc]
    refine ⟨fun n => ?_, ?_, ?_, h.dropped, h.totals⟩
    · rw [hline, List.map_append, List.count_append, List.length_append, List.length_singleton,
        count_number, ← h.occurs n]
      exact Nat.add_right_comm ..
    · rw [hline, List.map_append, List.pairwise_append]
      refine ⟨h.order, List.pairwise_singleton .., fun n hn m hm => ?_⟩
      obtain rfl := List.mem_singleton.mp hm
      exact h.lt_of_mem hn
    · rw [hline]
      intro x hx
      rcases List.mem_append.mp hx with hx | hx
      · exact hkeep x hx
      · obtain rfl := List.mem_singleton.mp hx
        exact List.getElem?_concat_length
  · refine ⟨fun n => ?_, h.order, hkeep, h.dropped, h.totals⟩
    rw [List.length_append, List.length_singleton, count_number, ← h.occurs n]
    simp only [line, persisted, waiting, lost, overflowed, List.count_append, List.count_cons,
      List.count_nil]
    omega

theorem Inv.count (h : Inv s) {number : ℕ} (hmem : number ∈ s.counting) : Inv { s with
      dropped := s.dropped + 1
      counted := number :: s.counted
      counting := s.counting.erase number } := by
  refine h.move rfl rfl (fun n => ?_) (congrArg (· + 1) h.dropped) h.totals
  have hcount := (List.perm_cons_erase hmem).count_eq n
  simp only [lost, overflowed, List.count_append, List.count_cons] at hcount ⊢
  omega

theorem Inv.receive (h : Inv s) (hphase : s.phase = .waiting) (k : ℕ) : Inv { s with
      channel := s.channel.receive k
      phase := .received ((s.channel.queue.take k).map fun m => .given m.1 m.2) } := by
  have hline : ∀ t : Writer E, t.db = s.db → t.phase = .received ((s.channel.queue.take k).map
      fun m => .given m.1 m.2) → t.channel = s.channel.receive k → t.line = s.line := by
    intro t hdb hp hc
    simp only [line, persisted, waiting, hdb, hp, hc, hphase, Phase.rows, items_given,
      Channel.queue_receive, List.take_append_drop]
    rfl
  refine h.move rfl (hline _ rfl rfl rfl) (fun n => ?_) h.dropped fun d t w hmem => ?_
  · simp only [lost, overflowed, reported_append, hphase, Phase.rows, reported_given]
    rfl
  · rcases List.mem_append.mp hmem with hmem | hmem
    · exact h.totals d t w (List.mem_append_left _ hmem)
    · obtain ⟨m, -, hm⟩ := List.mem_map.mp hmem
      exact nomatch hm

theorem Inv.release (h : Inv s) (hphase : s.phase = .received events) :
    Inv { s with channel := s.channel.release, phase := .drained events } := by
  refine h.move rfl ?_ (fun n => ?_) h.dropped ?_
  · simp only [line, persisted, waiting, hphase, Phase.rows, Channel.queue_release]
  · simp only [lost, overflowed, hphase, Phase.rows]
  · intro d t w hmem
    have htotals := h.totals d t w
    rw [hphase] at htotals
    exact htotals hmem

theorem Inv.swap (h : Inv s) (hphase : s.phase = .drained events) (now : ℕ)
    (hp : p.rows = if s.dropped > 0 then events ++ [.overflow s.dropped now s.counted]
      else events) : Inv { s with dropped := 0, counted := [], phase := p } := by
  have hrows : s.phase.rows = events := by rw [hphase]; rfl
  refine h.move rfl ?_ (fun n => ?_) rfl ?_
  · simp only [line, persisted, waiting, hp, hrows]
    split_ifs
    · rw [items_append, items_overflow, List.append_nil]
    · rfl
  · simp only [lost, overflowed, hp, hrows]
    split_ifs with hdropped
    · simp only [reported_append, reported_overflow, List.count_append, List.count_nil]
      omega
    · have hnil : s.counted = [] := List.eq_nil_of_length_eq_zero (by rw [← h.dropped]; omega)
      rw [hnil]
  · intro d t w hmem
    have htotals := h.totals d t w
    rw [hrows] at htotals
    rw [hp] at hmem
    split_ifs at hmem
    · rw [← List.append_assoc, List.mem_append, List.mem_singleton] at hmem
      rcases hmem with hmem | hmem
      · exact htotals hmem
      · cases hmem
        exact h.dropped
    · exact htotals hmem

theorem Inv.setPhase (h : Inv s) (hp : p.rows = s.phase.rows) : Inv { s with phase := p } := by
  refine h.move rfl ?_ (fun n => ?_) h.dropped ?_
  · simp only [line, persisted, waiting, hp]
  · simp only [lost, overflowed, hp]
  · intro d t w hmem
    rw [hp] at hmem
    exact h.totals d t w hmem

theorem Inv.insert (h : Inv s) {own : List (Row E)} (hitems : items own = [])
    (hreported : reported own = []) (hown : ∀ d t w, .overflow d t w ∉ own) :
    Inv { s with db := s.db ++ (s.phase.rows ++ own), phase := .waiting } := by
  refine h.move rfl ?_ (fun n => ?_) h.dropped ?_
  · simp only [line, persisted, waiting, items_append, hitems, Phase.rows, List.append_nil,
      List.append_assoc]
    rfl
  · simp only [lost, overflowed, reported_append, hreported, Phase.rows, List.append_nil]
  · intro d t w hmem
    simp only [Phase.rows, List.append_nil, ← List.append_assoc] at hmem
    rcases List.mem_append.mp hmem with hmem | hmem
    · exact h.totals d t w hmem
    · exact absurd hmem (hown d t w)

theorem Inv.step (h : Inv s) {a : Action E} (hs : s.step a = some s') : Inv s' := by
  cases a with
  | emit event =>
    cases hs
    exact h.emit event
  | count number =>
    simp only [Writer.step] at hs
    split_ifs at hs with hmem
    cases hs
    exact h.count hmem
  | receive k =>
    simp only [Writer.step] at hs
    split at hs
    · next hphase =>
      split_ifs at hs
      cases hs
      exact h.receive hphase k
    · exact nomatch hs
  | release =>
    simp only [Writer.step] at hs
    split at hs
    · next events hphase =>
      cases hs
      exact h.release hphase
    · exact nomatch hs
  | swap now =>
    simp only [Writer.step] at hs
    split at hs
    · next events hphase =>
      cases hs
      refine h.swap hphase now ?_
      generalize (if s.dropped > 0 then events ++ [.overflow s.dropped now s.counted] else events) = rows
      split_ifs with hnil
      · exact (List.isEmpty_iff.mp hnil).symm
      · rfl
    · exact nomatch hs
  | attempt now =>
    simp only [Writer.step] at hs
    split at hs
    · next events failure hphase =>
      cases hs
      exact h.setPhase (by rw [hphase]; rfl)
    · exact nomatch hs
  | insert error =>
    simp only [Writer.step] at hs
    split at hs
    · next events failure recovered hphase =>
      have hrows : s.phase.rows = events := by rw [hphase]; rfl
      split at hs
      · cases hs
        rw [List.append_assoc events, ← hrows]
        refine h.insert ?_ ?_ ?_
        · cases failure <;> cases recovered <;> rfl
        · cases failure <;> cases recovered <;> rfl
        · cases failure <;> cases recovered <;> simp
      · cases hs
        exact h.setPhase hrows.symm
    · exact nomatch hs

theorem inv_init : Inv ({} : Writer E) where
  occurs := fun _ => rfl
  order := .nil
  events := nofun
  dropped := rfl
  totals := nofun

/-- Every event given to the writer is in one place: in the table, in the batch or the channel, counted in
an overflow event, counted in the counter, or in an `emit` that is about to count it. -/
structure Exact (s : Writer E) : Prop where
  place : ∀ n < s.emitted.length, s.occurrences n + s.counting.count n = 1
  /-- The events in the table are in the order in which they were given. -/
  order : (s.persisted.map Prod.fst).Pairwise (· < ·)
  events : ∀ x ∈ s.persisted ++ s.waiting, s.emitted[x.1]? = some x.2
  counter : s.dropped = s.counted.length
  /-- An overflow event has the number of the events that are counted in it. -/
  totals : ∀ d t w, .overflow d t w ∈ s.db ++ s.phase.rows → d = w.length

theorem Inv.exact (h : Inv s) : Exact s where
  place := fun n hn => by
    have hoccurs := h.occurs n
    rw [if_pos hn] at hoccurs
    simp only [line, lost, occurrences, List.map_append, List.count_append] at hoccurs ⊢
    omega
  order := by
    have horder := h.order
    rw [line, List.map_append, List.pairwise_append] at horder
    exact horder.1
  events := h.events
  counter := h.dropped
  totals := h.totals

/-- **The event log is exact**, over every interleaving of emits, batches and failures. -/
theorem event_log_exact (h : Reach step anyStep ({} : Writer E) s) : Exact s :=
  (h.invariant Inv inv_init fun _ _ _ hinv _ hs => hinv.step hs).exact

end

/-- A batch is inserted at the second attempt. -/
theorem event_log_exact_retry : ∃ s : Writer Bool, Reach step anyStep {} s ∧
    s.db = [.given 0 true, .given 1 false, .failed "locked" 2 7, .recovered 3 8] ∧
    s.waiting = [(2, true)] ∧ Exact s :=
  (exists_reach (P := fun s : Writer Bool => s.db = [.given 0 true, .given 1 false,
      .failed "locked" 2 7, .recovered 3 8] ∧ s.waiting = [(2, true)])
    [.emit true, .emit false, .receive 2, .release, .swap 5, .attempt 6, .insert (some ("locked", 7)),
      .emit true, .attempt 8, .insert none] (by decide +kernel)).imp fun _ h =>
    ⟨h.1, h.2.1, h.2.2, event_log_exact h.1⟩

end Writer

end Nullnet.Server.EventLog
