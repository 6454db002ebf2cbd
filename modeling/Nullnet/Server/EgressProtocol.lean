import Nullnet.Server.EgressFates

/-! # The egress edge protocol

What the accounting of fates says about the protocol: where the net id of a call of
`ensure_egress_edge` is at any time (`Inv.whereabouts`), and that the rows of the history which are
open at any point of the stream belong to live edges (`Inv.rows_during`). -/

namespace Nullnet.Server

open Nullnet.Lib

namespace Egress

/-! ## Where an id is -/

/-- The call is still building the network, or is about to dispatch its teardown. -/
def InFlight (pc : EnsurePc) : Prop := settled pc = 0

/-- The edge of generation `g` is live with the net id `n`. -/
def LiveOwn (s : Egress) (g : ℕ) (c : EnsureCall) (n : ℕ) : Prop :=
  ∃ e, s.edges.lookup c.key = some e ∧ e.generation = g ∧ e.netId = n

/-- The edge of generation `g` is removed and waits for its teardown. -/
def Queued (s : Egress) (g : ℕ) : Prop := ∃ es ∈ s.removers, ∃ e ∈ es, e.generation = g

/-- The teardowns dispatched for generation `g`. -/
def torn (s : Egress) (g : ℕ) : List EgressTeardown := s.teardowns.filter (·.generation = g)

section fate

variable {s : Egress} {g n : ℕ} {c : EnsureCall} {t : EgressTeardown}

theorem Inv.fate_eq (hi : Inv s) (hl : s.calls.lookup g = some c) (ha : allocated c.pc = some n)
    (ht : t ∈ s.fates) (hg : t.generation = g) : t = callTeardown g c n := by
  obtain ⟨⟨c', hl', he, hn⟩, h0⟩ := hi.fate t ht
  obtain rfl : c = c' := by rw [hg, hl] at hl'; exact Option.some.inj hl'
  have hid : n = t.netId := Option.some.inj (ha.symm.trans (hn h0))
  rw [he, hg, hid]

theorem liveOwn_of_mem (hi : Inv s) (hl : s.calls.lookup g = some c) (ha : allocated c.pc = some n)
    (ht : t ∈ liveTags s.edges) (hg : t.generation = g) : s.LiveOwn g c n := by
  have he := hi.fate_eq hl ha (List.mem_append_left _ (List.mem_append_left _ ht)) hg
  obtain ⟨k, e, hm, -, htag⟩ := mem_liveTags.mp ht
  have hk := (hi.edge k e hm).1
  rw [he, EgressEdge.teardown, callTeardown, EgressTeardown.mk.injEq] at htag
  obtain ⟨h1, h2, h3, -, h5⟩ := htag
  refine ⟨e, Dict.lookup_eq_some.mpr ?_, h1, h5⟩
  rwa [EnsureCall.key, ← h2, ← h3, hk]

theorem mem_liveTags_of_liveOwn (h : s.LiveOwn g c n) (hn : n ≠ 0) :
    ∃ t ∈ liveTags s.edges, t.generation = g := by
  obtain ⟨e, hl, hg, hid⟩ := h
  exact ⟨e.teardown, mem_liveTags.mpr ⟨_, e, Dict.mem_of_lookup hl, hid ▸ hn, rfl⟩, hg⟩

/-- **Where an allocated id is**: with its call, with the live edge of its generation, with a
removed edge that waits for its teardown, or with exactly one dispatched teardown. -/
theorem Inv.whereabouts (hi : Inv s) (hl : s.calls.lookup g = some c) (ha : allocated c.pc = some n) :
    (InFlight c.pc ∧ ¬ s.LiveOwn g c n ∧ ¬ s.Queued g ∧ s.torn g = []) ∨
    (¬ InFlight c.pc ∧ s.LiveOwn g c n ∧ ¬ s.Queued g ∧ s.torn g = []) ∨
    (¬ InFlight c.pc ∧ ¬ s.LiveOwn g c n ∧ s.Queued g ∧ s.torn g = []) ∨
    (¬ InFlight c.pc ∧ ¬ s.LiveOwn g c n ∧ ¬ s.Queued g ∧ s.torn g = [callTeardown g c n]) := by
  have hn := hi.alloc g c n hl ha
  set L := (liveTags s.edges).countP (·.generation = g) with hL
  set Q := (s.removers.flatten.map EgressEdge.teardown).countP (·.generation = g) with hQ
  set T := s.teardowns.countP (·.generation = g) with hT
  have hlaw : L + Q + T = settled c.pc := by
    have := hi.law g
    simpa only [owed, hl, Option.elim, fates, List.countP_append] using this
  have hle : settled c.pc ≤ 1 := by unfold settled; split <;> omega
  have hlive : s.LiveOwn g c n ↔ 0 < L := by
    rw [hL, List.countP_pos_iff]
    constructor
    · intro h
      obtain ⟨t, ht, hg⟩ := mem_liveTags_of_liveOwn h hn
      exact ⟨t, ht, by simpa using hg⟩
    · rintro ⟨t, ht, hg⟩
      exact liveOwn_of_mem hi hl ha ht (by simpa using hg)
  have hqueued : s.Queued g ↔ 0 < Q := by
    rw [hQ, List.countP_pos_iff]
    simp only [Queued, List.mem_map, List.mem_flatten, decide_eq_true_eq]
    constructor
    · rintro ⟨es, hes, e, he, hg⟩
      exact ⟨e.teardown, ⟨e, ⟨es, hes, he⟩, rfl⟩, hg⟩
    · rintro ⟨-, ⟨e, ⟨es, hes, he⟩, rfl⟩, hg⟩
      exact ⟨es, hes, e, he, hg⟩
  have hlen : (s.torn g).length = T := by rw [hT, List.countP_eq_length_filter]; rfl
  have hnil : T = 0 → s.torn g = [] := fun h => List.length_eq_zero_iff.mp (hlen.trans h)
  have hone : T = 1 → s.torn g = [callTeardown g c n] := by
    intro h
    obtain ⟨t, ht⟩ := List.length_eq_one_iff.mp (hlen.trans h)
    have hmem : t ∈ s.torn g := by rw [ht]; exact List.mem_cons_self
    obtain ⟨hm, hg⟩ := List.mem_filter.mp hmem
    rw [ht, hi.fate_eq hl ha (List.mem_append_right _ hm) (by simpa using hg)]
  unfold InFlight
  rw [hlive, hqueued]
  rcases Nat.eq_zero_or_pos (settled c.pc) with h0 | h1
  · exact .inl ⟨h0, by omega, by omega, hnil (by omega)⟩
  · rcases Nat.eq_zero_or_pos L with hL0 | hL1
    · rcases Nat.eq_zero_or_pos Q with hQ0 | hQ1
      · exact .inr (.inr (.inr ⟨by omega, by omega, by omega, hone (by omega)⟩))
      · exact .inr (.inr (.inl ⟨by omega, by omega, by omega, hnil (by omega)⟩))
    · exact .inr (.inl ⟨by omega, by omega, by omega, hnil (by omega)⟩)

end fate

/-! ## The history within a step -/

theorem filed_closes (edges : Dict EgressKey EgressEdge) (es : List EgressEdge) (clock : ℕ) :
    ∀ m ∈ es.map fun e => SessionMutation.closeEgress e.netId clock, Filed edges m := by
  intro m hm
  obtain ⟨e, -, rfl⟩ := List.mem_map.mp hm
  trivial

variable {net : Net} {s s' : Egress} {a : EgressAction}

theorem step_stream (h : s.step net a = some s') :
    ∃ more, s'.stream = s.stream ++ more ∧ ∀ m ∈ more, Filed s.edges m := by
  have hnone : s'.stream = s.stream → ∃ more, s'.stream = s.stream ++ more ∧
      ∀ m ∈ more, Filed s.edges m := fun he => ⟨[], by simp [he], by simp⟩
  cases a with
  | call g stack service initiatorIp initiatorDocker proxyIp =>
    rcases hl : s.calls.lookup g with - | c <;> simp only [Egress.step, hl, reduceCtorEq] at h
    exact hnone (Option.some.inj h ▸ rfl)
  | advance g =>
    simp only [Egress.step, Option.bind_eq_some_iff] at h
    obtain ⟨c, -, h⟩ := h
    rcases hpc : c.pc with - | - | - | n | n | n | n | n | n | ⟨x, r⟩ <;>
      simp only [Egress.advanceCall, hpc, Option.some.injEq, reduceCtorEq] at h
    · refine hnone ?_
      rw [← h, reserve]
      split <;> [split_ifs; skip] <;> rfl
    · rcases ha : s.pool.allocate net with ⟨- | n, pool⟩ <;>
        simp only [ha, Option.some.injEq] at h <;> exact hnone (h ▸ rfl)
    · exact h ▸ ⟨_, rfl, filed_closes _ _ _⟩
    · exact hnone (h ▸ rfl)
    · exact h ▸ ⟨_, rfl, filed_closes _ _ _⟩
    · refine hnone ?_
      rw [← h, promote]
      split <;> [split_ifs; skip] <;> rfl
    · exact hnone (h ▸ rfl)
  | setup g proxyOk initOk ready =>
    simp only [Egress.step, Option.bind_eq_some_iff] at h
    obtain ⟨c, -, h⟩ := h
    split at h
    · exact hnone (Option.some.inj h ▸ rfl)
    · cases h
  | persist g geo =>
    simp only [Egress.step, Option.bind_eq_some_iff] at h
    obtain ⟨c, -, h⟩ := h
    obtain ⟨more, he, hm⟩ := persist_eq s c.key geo
    split at h
    · rw [he] at h
      exact Option.some.inj h ▸ ⟨more, rfl, hm⟩
    · cases h
  | record initiatorIp initiatorDocker dst count lastSeen blocked active geo =>
    obtain ⟨f, more, -, he, hm⟩ := record_eq s (initiatorIp, initiatorDocker) dst
      ⟨lastSeen, count, blocked, active⟩ geo
    rw [Egress.step, he] at h
    exact Option.some.inj h ▸ ⟨more, rfl, hm⟩
  | nodeLost nodeIp | containersLost nodeIp live | reapIdle debounce =>
    exact Option.some.inj h ▸ ⟨_, rfl, filed_closes _ _ _⟩
  | dispatch t =>
    simp only [Egress.step] at h
    split at h
    · exact hnone (Option.some.inj h ▸ rfl)
    · cases h
  | _ => exact hnone (Option.some.inj h ▸ rfl)

/-- At every point of the stream that a step passes, the open rows are of edges that were live when
the step began. -/
theorem Inv.rows_during (hi : Inv s)
    (h : s.step net a = some s') {stream : List SessionMutation} (h1 : s.stream <+: stream)
    (h2 : stream <+: s'.stream) : RowsLive stream s.edges := by
  obtain ⟨more, he, hm⟩ := step_stream h
  obtain ⟨p, rfl⟩ := h1
  rw [he, List.prefix_append_right_inj] at h2
  exact hi.rows.append fun m hp => hm m (h2.subset hp)

theorem call_can_step (net : Net) {g : ℕ} {c : EnsureCall}
    (hl : s.calls.lookup g = some c) (hr : ∀ n r, c.pc ≠ .returned n r) :
    (s.step net (.advance g)).isSome ∨ (s.step net (.setup g true true true)).isSome ∨
      (s.step net (.persist g fun _ => ⟨none, none, none⟩)).isSome := by
  rcases hpc : c.pc with - | - | - | n | n | n | n | n | n | ⟨x, r⟩ <;>
    simp [step, hl, advanceCall, hpc]
  · rcases s.pool.allocate net with ⟨- | n, pool⟩ <;> rfl
  · exact hr x r hpc

end Egress

/-- **The egress edge protocol.** In every reachable state there is at most one entry per key, and
it is that replica's. A net id that a call allocated is with the call while it builds; afterwards it
is in the live entry of the call's generation, or in an entry that was removed and whose teardown is
next, or exactly one teardown was dispatched for it. A call that has not returned can go on, and so
can a task that has teardowns left. At every point of the stream of mutations, between the steps and
within them, an open row carries the net id of a live edge. -/
theorem egress_protocol (net : Net) (s : Egress) (h : Reach (Egress.step net) anyStep .new s) :
    (∀ k e e', ⟨k, e⟩ ∈ s.edges.entries → ⟨k, e'⟩ ∈ s.edges.entries →
      e = e' ∧ (e.initiatorIp, e.initiatorDocker) = k) ∧
    (∀ g c n, s.calls.lookup g = some c → Egress.allocated c.pc = some n →
      (Egress.InFlight c.pc ∧ ¬ s.LiveOwn g c n ∧ ¬ s.Queued g ∧ s.torn g = []) ∨
      (¬ Egress.InFlight c.pc ∧ s.LiveOwn g c n ∧ ¬ s.Queued g ∧ s.torn g = []) ∨
      (¬ Egress.InFlight c.pc ∧ ¬ s.LiveOwn g c n ∧ s.Queued g ∧ s.torn g = []) ∨
      (¬ Egress.InFlight c.pc ∧ ¬ s.LiveOwn g c n ∧ ¬ s.Queued g ∧
        s.torn g = [Egress.callTeardown g c n])) ∧
    ((∀ g c n r, s.calls.lookup g = some c → c.pc = .returned (some n) r →
        ¬ Egress.InFlight c.pc) ∧
      (∀ g c, s.calls.lookup g = some c → (∀ n r, c.pc ≠ .returned n r) →
        (s.step net (.advance g)).isSome ∨ (s.step net (.setup g true true true)).isSome ∨
          (s.step net (.persist g fun _ => ⟨none, none, none⟩)).isSome) ∧
      ∀ t e es, s.removers[t]? = some (e :: es) → (s.step net (.dispatch t)).isSome) ∧
    (∀ r ∈ history s.stream, r.endedAt = none →
      ∃ k e, ⟨k, e⟩ ∈ s.edges.entries ∧ e.netId ≠ 0 ∧ e.netId = r.netId) ∧
    ∀ a s' stream, s.step net a = some s' → s.stream <+: stream → stream <+: s'.stream →
      ∀ r ∈ history stream, r.endedAt = none →
        ∃ k e, ⟨k, e⟩ ∈ s.edges.entries ∧ e.netId ≠ 0 ∧ e.netId = r.netId := by
  have hi := Egress.inv_of_reach h
  have hrow : ∀ {stream}, Egress.RowsLive stream s.edges → ∀ r ∈ history stream,
      r.endedAt = none → ∃ k e, ⟨k, e⟩ ∈ s.edges.entries ∧ e.netId ≠ 0 ∧ e.netId = r.netId := by
    intro stream hl r hr ho
    obtain ⟨t, ht, hn⟩ := hl r.netId ⟨r, hr, rfl, ho⟩
    obtain ⟨k, e, hm, h₀, rfl⟩ := Egress.mem_liveTags.mp ht
    exact ⟨k, e, hm, h₀, hn⟩
  refine ⟨fun k e e' he he' => ⟨Dict.entries_inj he he', (hi.edge k e he).1⟩,
    fun g c n hl ha => hi.whereabouts hl ha, ⟨?_, fun g c hl hr => ?_, ?_⟩, hrow hi.rows,
    fun a s' stream hs h₁ h₂ => hrow (hi.rows_during hs h₁ h₂)⟩
  · intro g c n r _ hpc
    rw [hpc]
    simp [Egress.InFlight, Egress.settled]
  · exact Egress.call_can_step net hl hr
  · intro t e es ht
    simp [Egress.step, ht]

/-- A reservation goes stale and is taken over; the first call then finishes its setup. -/
def takeoverRun : List EgressAction :=
  [.call 0 "s" "a" (.v4 1) none (.v4 9), .advance 0, .advance 0, .tick 90000,
    .call 1 "s" "a" (.v4 1) none (.v4 9), .advance 1, .advance 1, .setup 0 true true true,
    .advance 0, .advance 0, .setup 1 true true true, .advance 1,
    .record (.v4 1) none 7 1 90 false true ⟨none, none, none⟩,
    .persist 1 fun _ => ⟨none, none, none⟩]

/-- The state after `takeoverRun`. -/
def takenOver : Egress := (run (Egress.step .vxlan) .new takeoverRun).getD .new

theorem egress_protocol_takenOver :
    run (Egress.step .vxlan) .new takeoverRun = some takenOver ∧
    takenOver.torn 0 = [⟨0, .v4 1, none, .v4 9, 101⟩] ∧ (history takenOver.stream).length = 1 ∧
    ∀ r ∈ history takenOver.stream, r.endedAt = none →
      ∃ k e, ⟨k, e⟩ ∈ takenOver.edges.entries ∧ e.netId ≠ 0 ∧ e.netId = r.netId := by
  have hr : run (Egress.step .vxlan) .new takeoverRun = some takenOver := by rfl
  exact ⟨hr, by rfl, by rfl, (egress_protocol .vxlan takenOver (reach_of_run hr)).2.2.2.1⟩

end Nullnet.Server
