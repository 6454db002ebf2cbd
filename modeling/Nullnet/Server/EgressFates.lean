import Nullnet.Server.Egress

/-! # The fates of the net ids of egress edges

Every net id that a call of `ensure_egress_edge` allocates has one *fate*: the live edge of that
call, a removed edge whose teardown is still to be dispatched, or a dispatched teardown. The fates
of all calls are one list (`fates`); the steps of the system move an entry within the list, except
for the step in which a call hands its id on, which adds one. So each call has as many fates as it has
handed on ids (`Egress.Inv`). -/

namespace Nullnet.Server

open Nullnet.Lib

namespace Egress

/-! ## Fates -/

/-- The teardowns that the live edges will need. -/
def liveTags (edges : Dict EgressKey EgressEdge) : List EgressTeardown :=
  (edges.entries.filter fun e => e.2.netId ≠ 0).map fun e => e.2.teardown

def fates (s : Egress) : List EgressTeardown :=
  liveTags s.edges ++ s.removers.flatten.map EgressEdge.teardown ++ s.teardowns

def allocated : EnsurePc → Option ℕ
  | .reserving | .allocating | .releasing => none
  | .settingUp n | .tearing n | .unreserving n | .promoting n | .stranded n | .persisting n =>
    some n
  | .returned n _ => n

/-- The number of ids that a call has handed on, to an edge or to a teardown. -/
def settled : EnsurePc → ℕ
  | .unreserving _ | .persisting _ | .returned (some _) _ => 1
  | _ => 0

/-- The number of ids that the call of generation `g` has handed on. -/
def owed (s : Egress) (g : ℕ) : ℕ := (s.calls.lookup g).elim 0 fun c => settled c.pc

/-- The teardown has the data of the call of its generation, and the net id it allocated. -/
def Owned (calls : Dict ℕ EnsureCall) (t : EgressTeardown) : Prop :=
  ∃ c, calls.lookup t.generation = some c ∧ t = callTeardown t.generation c t.netId ∧
    (t.netId ≠ 0 → allocated c.pc = some t.netId)

/-- Every open row of the history is of a live edge. -/
def RowsLive (stream : List SessionMutation) (edges : Dict EgressKey EgressEdge) : Prop :=
  ∀ n, OpenNet (history stream) n → ∃ t ∈ liveTags edges, t.netId = n

/-- **The invariant.** -/
structure Inv (s : Egress) : Prop where
  pool : s.pool.AboveMin
  edge : ∀ k e, ⟨k, e⟩ ∈ s.edges.entries →
    (e.initiatorIp, e.initiatorDocker) = k ∧ Owned s.calls e.teardown
  fate : ∀ t ∈ s.fates, Owned s.calls t ∧ t.netId ≠ 0
  law : ∀ g, s.fates.countP (·.generation = g) = s.owed g
  alloc : ∀ g c n, s.calls.lookup g = some c → allocated c.pc = some n → n ≠ 0
  torn : ∀ g c n, s.calls.lookup g = some c → c.pc = .unreserving n →
    callTeardown g c n ∈ s.teardowns
  rows : RowsLive s.stream s.edges

theorem inv_new : Inv .new where
  pool := ⟨le_rfl, by simp [new, NetIdPool.new]⟩
  edge k e h := by simp [new] at h
  fate t h := by simp [fates, liveTags, new] at h
  law g := by simp [fates, liveTags, owed, new]
  alloc g c n h := by simp [new] at h
  torn g c n h := by simp [new] at h
  rows n h := by simp [OpenNet, history, new] at h

variable {edges : Dict EgressKey EgressEdge} {s : Egress} {stream : List SessionMutation}
  {s' : Egress} {key : EgressKey} {net : Net}

theorem mem_liveTags {t : EgressTeardown} :
    t ∈ liveTags edges ↔ ∃ k e, ⟨k, e⟩ ∈ edges.entries ∧ e.netId ≠ 0 ∧ e.teardown = t := by
  simp only [liveTags, List.mem_map, List.mem_filter, decide_eq_true_eq, Sigma.exists]
  constructor
  · rintro ⟨k, e, ⟨hm, hn⟩, ht⟩; exact ⟨k, e, hm, hn, ht⟩
  · rintro ⟨k, e, hm, hn, ht⟩; exact ⟨k, e, ⟨hm, hn⟩, ht⟩

/-! ## Steps that are not of a call -/

theorem Inv.env (hi : Inv s) (hc : s'.calls = s.calls) (hp : s'.pool.AboveMin)
    (he : ∀ k e, ⟨k, e⟩ ∈ s'.edges.entries →
      ∃ e0, ⟨k, e0⟩ ∈ s.edges.entries ∧ e.teardown = e0.teardown) (hf : s'.fates.Perm s.fates)
    (ht : ∀ t ∈ s.teardowns, t ∈ s'.teardowns) (hr : RowsLive s'.stream s'.edges) : Inv s' where
  pool := hp
  edge k e h := by
    obtain ⟨e0, h0, ht⟩ := he k e h
    obtain ⟨hk, ho⟩ := hi.edge k e0 h0
    have hip : e.initiatorIp = e0.initiatorIp ∧ e.initiatorDocker = e0.initiatorDocker :=
      ⟨congrArg EgressTeardown.initiatorIp ht, congrArg EgressTeardown.initiatorDocker ht⟩
    rw [hip.1, hip.2, hc, ht]
    exact ⟨hk, ho⟩
  fate t ht := by rw [hc]; exact hi.fate t (hf.mem_iff.mp ht)
  law g := by
    rw [hf.countP_eq, hi.law g]
    simp only [owed, hc]
  alloc := by rw [hc]; exact hi.alloc
  torn g c n hl hpc := ht _ (hi.torn g c n (hc ▸ hl) hpc)
  rows := hr

/-! ### Updates in place -/

section modify

variable {edges : Dict EgressKey EgressEdge} {k : EgressKey} {f : EgressEdge → EgressEdge}
  {e : EgressEdge}

theorem mem_modify {k' : EgressKey} (h : ⟨k', e⟩ ∈ (Dict.modify k f edges).entries) :
    ∃ e0, ⟨k', e0⟩ ∈ edges.entries ∧ (e = e0 ∨ k' = k ∧ e = f e0) := by
  rw [← Dict.lookup_eq_some, Dict.lookup_modify] at h
  split_ifs at h with hk
  · obtain ⟨e0, h0, rfl⟩ := Option.map_eq_some_iff.mp h
    exact ⟨e0, Dict.mem_of_lookup h0, .inr ⟨hk, rfl⟩⟩
  · exact ⟨e, Dict.mem_of_lookup h, .inl rfl⟩

theorem liveTags_modify (hf : ∀ e, (f e).teardown = e.teardown) :
    liveTags (Dict.modify k f edges) = liveTags edges := by
  rcases hl : edges.lookup k with - | e
  · rw [Dict.modify_of_notMem f hl]
  · obtain ⟨l1, l2, he, h1, h2⟩ := Dict.entries_split hl
    have hn : (f e).netId = e.netId := congrArg EgressTeardown.netId (hf e)
    simp only [liveTags, Dict.modify_entries f he h1 h2, he, List.filter_append, List.map_append,
      List.filter_cons, hn]
    split_ifs <;> simp [hf e]

theorem liveTags_promote (hl : edges.lookup k = some e) (h0 : e.netId = 0) (hn : (f e).netId ≠ 0) :
    (liveTags (Dict.modify k f edges)).Perm ((f e).teardown :: liveTags edges) := by
  obtain ⟨l1, l2, he, h1, h2⟩ := Dict.entries_split hl
  simp only [liveTags, Dict.modify_entries f he h1 h2, he, List.filter_append, List.map_append,
    List.filter_cons, h0, hn, ne_eq, not_true_eq_false, not_false_eq_true, decide_true,
    decide_false, if_true, Bool.false_eq_true, if_false, List.map_cons]
  exact List.perm_middle

end modify

/-! ### Removal -/

section remove

variable {s : Egress} {pred : EgressKey → EgressEdge → Bool} {e : EgressEdge}

theorem liveTags_retain (edges : Dict EgressKey EgressEdge) (pred : EgressKey → EgressEdge → Bool) :
    (liveTags (edges.retain fun k e => !pred k e) ++
      (((edges.entries.filter fun e => pred e.1 e.2).map Sigma.snd).filter
        fun e => e.netId ≠ 0).map EgressEdge.teardown).Perm (liveTags edges) := by
  have hperm := List.filter_append_perm (fun e : Σ _ : EgressKey, EgressEdge => pred e.1 e.2)
    (edges.entries.filter fun e => e.2.netId ≠ 0)
  have hmap := (List.perm_append_comm.trans hperm).map fun e => e.2.teardown
  refine List.Perm.trans (List.Perm.of_eq ?_) hmap
  simp only [liveTags, Dict.retain, List.map_append, List.filter_filter, List.filter_map,
    List.map_map, Bool.and_comm]
  rfl

theorem fates_teardownEdges : (s.teardownEdges pred).fates.Perm s.fates := by
  have hperm := liveTags_retain s.edges pred
  simp only [fates, teardownEdges, removeEgressEdges, matching, List.flatten_append,
    List.flatten_cons, List.flatten_nil, List.append_nil, List.map_append]
  refine List.Perm.append_right _ ?_
  refine List.Perm.trans ?_ (hperm.append_right _)
  rw [List.append_assoc]
  exact List.Perm.append_left _ List.perm_append_comm

theorem liveTags_removeReservations (h : ∀ k e, ⟨k, e⟩ ∈ s.edges.entries → pred k e → e.netId = 0) :
    (liveTags (s.removeEgressEdges pred).edges).Perm (liveTags s.edges) := by
  have hperm := liveTags_retain s.edges pred
  have hnil : ((s.edges.entries.filter fun e => pred e.1 e.2).map Sigma.snd).filter
      (fun e => e.netId ≠ 0) = [] := by
    rw [List.filter_eq_nil_iff]
    intro e he
    obtain ⟨⟨k, e'⟩, hm, rfl⟩ := List.mem_map.mp he
    obtain ⟨hm, hp⟩ := List.mem_filter.mp hm
    simp [h k e' hm hp]
  rw [hnil, List.map_nil, List.append_nil] at hperm
  exact hperm

theorem mem_of_mem_remove {k : EgressKey}
    (h : ⟨k, e⟩ ∈ (s.removeEgressEdges pred).edges.entries) : ⟨k, e⟩ ∈ s.edges.entries :=
  (Dict.mem_retain.mp h).1

theorem fates_dispatch {t : ℕ} {rest : List EgressEdge} (h : s.removers[t]? = some (e :: rest)) :
    ({ s.sendNetTeardown e.teardown with removers := s.removers.set t rest } : Egress).fates.Perm
      s.fates := by
  obtain ⟨ht, hget⟩ := List.getElem?_eq_some_iff.mp h
  have hflat : (e :: (s.removers.set t rest).flatten).Perm s.removers.flatten := by
    have hs : s.removers = s.removers.take t ++ (e :: rest) :: s.removers.drop (t + 1) := by
      rw [← hget, List.getElem_cons_drop, List.take_append_drop]
    conv_rhs => rw [hs]
    rw [List.set_eq_take_append_cons_drop, if_pos ht]
    simp only [List.flatten_append, List.flatten_cons, List.cons_append]
    exact List.perm_middle.symm
  simp only [fates, sendNetTeardown, List.append_assoc]
  refine List.Perm.append_left _ ?_
  refine List.perm_middle.trans ?_
  have hmap := (hflat.map EgressEdge.teardown).append_right s.teardowns
  simpa using hmap

end remove

/-! ### The history -/

/-- Closing a list of edges leaves open only what was open, and none of their rows. -/
theorem openNet_closes {clock n : ℕ} : ∀ {es : List EgressEdge} {rows : List SessionRow},
    OpenNet ((es.map fun e => SessionMutation.closeEgress e.netId clock).foldl
      SessionMutation.apply rows) n → OpenNet rows n ∧ ∀ e ∈ es, e.netId ≠ n
  | [], _, h => ⟨h, by simp⟩
  | e :: es, rows, h => by
    obtain ⟨ho, hes⟩ := @openNet_closes clock n es _ h
    obtain ⟨ho, hne⟩ := openNet_closeEgress ho
    refine ⟨ho, fun e' he' => ?_⟩
    rcases List.mem_cons.mp he' with rfl | he'
    · exact hne.symm
    · exact hes e' he'

theorem RowsLive.remove {pred : EgressKey → EgressEdge → Bool} (h : RowsLive s.stream s.edges) :
    RowsLive (s.removeEgressEdges pred).stream (s.removeEgressEdges pred).edges := by
  intro n ho
  simp only [removeEgressEdges] at ho
  rw [history_append] at ho
  obtain ⟨ho, hne⟩ := openNet_closes ho
  obtain ⟨t, ht, rfl⟩ := h n ho
  obtain ⟨k, e, hm, hn, rfl⟩ := mem_liveTags.mp ht
  refine ⟨e.teardown, mem_liveTags.mpr ⟨k, e, Dict.mem_retain.mpr ⟨hm, ?_⟩, hn, rfl⟩, rfl⟩
  -- a removed live edge has its rows closed
  by_contra hp
  refine hne e (List.mem_filter.mpr ⟨List.mem_map.mpr ⟨⟨k, e⟩, ?_, rfl⟩, by simpa using hn⟩) rfl
  exact List.mem_filter.mpr ⟨hm, by simpa using hp⟩

/-- The mutation files a row under the net id of a live edge, or ends rows. -/
def Filed (edges : Dict EgressKey EgressEdge) : SessionMutation → Prop
  | .egress row _ _ => ∃ t ∈ liveTags edges, t.netId = row.netId
  | _ => True

theorem RowsLive.append (h : RowsLive stream edges) :
    ∀ {more : List SessionMutation}, (∀ m ∈ more, Filed edges m) → RowsLive (stream ++ more) edges := by
  intro more
  induction more generalizing stream with
  | nil => intro _; rwa [List.append_nil]
  | cons m more ih =>
    intro hm
    rw [List.append_cons]
    refine ih (fun n ho => ?_) fun m' hm' => hm m' (List.mem_cons_of_mem _ hm')
    rw [history_append] at ho
    have hfiled := hm m List.mem_cons_self
    cases m with
    | egress row active timestamp =>
      rcases openNet_egress ho with ho | rfl
      · exact h n ho
      · exact hfiled
    | closeEgress netId timestamp => exact h n (openNet_closeEgress ho).1
    | closeAll timestamp => exact absurd ho not_openNet_closeAll.1
    | interrupt timestamp => exact absurd ho not_openNet_closeAll.2

theorem filed_destination {e : EgressEdge}
    (hl : edges.lookup key = some e) (hn : e.netId ≠ 0) (dst : Ipv4Addr) (stat : DestStat)
    (geo : SessionGeo) (clock : ℕ) : Filed edges (destinationMutation key e dst stat geo clock) :=
  ⟨e.teardown, mem_liveTags.mpr ⟨key, e, Dict.mem_of_lookup hl, hn, rfl⟩, rfl⟩

theorem RowsLive.mono {edges' : Dict EgressKey EgressEdge} (h : RowsLive stream edges)
    (hm : ∀ t ∈ liveTags edges, t ∈ liveTags edges') : RowsLive stream edges' := by
  intro n ho
  obtain ⟨t, ht, hn⟩ := h n ho
  exact ⟨t, hm t ht, hn⟩

/-! ## Steps of a call -/

section call

variable {s s' : Egress} {g : ℕ} {c : EnsureCall} {pc : EnsurePc} {k : EgressKey} {e : EgressEdge}
  {n : ℕ}

theorem Owned.mono {calls : Dict ℕ EnsureCall} {t : EgressTeardown} (h : Owned calls t)
    (hl : calls.lookup g = some c) (hk : ∀ n, allocated c.pc = some n → allocated pc = some n) :
    Owned (calls.insert g { c with pc := pc }) t := by
  obtain ⟨c', hl', ht, hn⟩ := h
  by_cases hg : t.generation = g
  · obtain rfl : c = c' := by rw [hg, hl] at hl'; exact Option.some.inj hl'
    exact ⟨{ c with pc := pc }, by rw [hg, AList.lookup_insert], ht, fun h0 => hk _ (hn h0)⟩
  · exact ⟨c', by rw [Dict.lookup_insert, if_neg hg]; exact hl', ht, hn⟩

theorem owed_insert (hc : s'.calls = s.calls.insert g { c with pc := pc }) (g' : ℕ) :
    s'.owed g' = if g' = g then settled pc else s.owed g' := by
  simp only [owed, hc, Dict.lookup_insert]
  split_ifs <;> rfl

/-- A step of a call: it hands on the ids in `extra`, and the other fates only move. -/
theorem Inv.callStep (extra : List EgressTeardown) (hi : Inv s) (hl : s.calls.lookup g = some c)
    (hc : s'.calls = s.calls.insert g { c with pc := pc })
    (hk : ∀ n, allocated c.pc = some n → allocated pc = some n)
    (hn : ∀ n, allocated pc = some n → n ≠ 0) (hp : s'.pool.AboveMin)
    (he : ∀ k e, ⟨k, e⟩ ∈ s'.edges.entries →
      (e.initiatorIp, e.initiatorDocker) = k ∧ Owned s'.calls e.teardown)
    (hx : ∀ t ∈ extra, t = callTeardown g c t.netId ∧ allocated pc = some t.netId)
    (hf : s'.fates.Perm (extra ++ s.fates)) (hs : settled pc = extra.length + settled c.pc)
    (ht : ∀ t ∈ s.teardowns, t ∈ s'.teardowns)
    (hu : ∀ n, pc = .unreserving n → callTeardown g c n ∈ s'.teardowns)
    (hr : RowsLive s'.stream s'.edges) : Inv s' where
  pool := hp
  edge := he
  fate t ht := by
    rcases List.mem_append.mp (hf.mem_iff.mp ht) with ht | ht
    · obtain ⟨h1, h2⟩ := hx t ht
      have hg : t.generation = g := by rw [h1]; rfl
      refine ⟨⟨{ c with pc := pc }, ?_, ?_, fun _ => h2⟩, hn _ h2⟩
      · rw [hc, hg, AList.lookup_insert]
      · rw [hg]; exact h1
    · rw [hc]
      exact ⟨(hi.fate t ht).1.mono hl hk, (hi.fate t ht).2⟩
  law g' := by
    have hgen : ∀ t ∈ extra, t.generation = g := fun t ht => by rw [(hx t ht).1]; rfl
    rw [hf.countP_eq, List.countP_append, hi.law g', owed_insert hc g']
    split_ifs with hg
    · rw [hg, List.countP_eq_length.mpr fun t ht => by simp [hgen t ht], hs]
      simp [owed, hl]
    · rw [List.countP_eq_zero.mpr fun t ht => by simp [hgen t ht, Ne.symm hg], Nat.zero_add]
  alloc g' c' n hl' ha := by
    rw [hc, Dict.lookup_insert] at hl'
    split_ifs at hl' with hg
    · cases hl'
      exact hn n ha
    · exact hi.alloc g' c' n hl' ha
  torn g' c' n hl' hpc := by
    rw [hc, Dict.lookup_insert] at hl'
    split_ifs at hl' with hg
    · cases hl'
      rw [hg]
      exact hu n hpc
    · exact ht _ (hi.torn g' c' n hl' hpc)
  rows := hr

theorem Inv.edge_mono (hi : Inv s) (hl : s.calls.lookup g = some c)
    (hk : ∀ n, allocated c.pc = some n → allocated pc = some n)
    (h : ⟨k, e⟩ ∈ s.edges.entries) : (e.initiatorIp, e.initiatorDocker) = k ∧
      Owned (s.calls.insert g { c with pc := pc }) e.teardown :=
  ⟨(hi.edge k e h).1, (hi.edge k e h).2.mono hl hk⟩

theorem Inv.setPc (hi : Inv s) (hl : s.calls.lookup g = some c)
    (hk : ∀ n, allocated c.pc = some n → allocated pc = some n)
    (hn : ∀ n, allocated pc = some n → n ≠ 0) (hs : settled pc = settled c.pc)
    (hu : ∀ n, pc ≠ .unreserving n) : Inv (s.setPc g c pc) :=
  hi.callStep [] hl rfl hk hn hi.pool (fun _ _ h => hi.edge_mono hl hk h) (by simp)
    (List.Perm.refl _) (by simp [hs]) (fun _ => id) (fun n h => absurd h (hu n)) hi.rows

theorem Inv.dispatchOwn (hi : Inv s) (hl : s.calls.lookup g = some c)
    (ha : allocated c.pc = some n) (ha' : allocated pc = some n)
    (hs : settled pc = 1 + settled c.pc) :
    Inv ((s.sendNetTeardown (callTeardown g c n)).setPc g c pc) := by
  have hk : ∀ m, allocated c.pc = some m → allocated pc = some m := fun m hm => by
    rw [ha'] ; rwa [ha] at hm
  refine hi.callStep [callTeardown g c n] hl rfl hk ?_ hi.pool
    (fun _ _ h => hi.edge_mono hl hk h) ?_ ?_ (by simpa using hs)
    (fun _ => List.mem_cons_of_mem _) ?_ hi.rows
  · intro m hm
    cases ha'.symm.trans hm
    exact hi.alloc g c n hl ha
  · intro t ht
    rw [List.mem_singleton] at ht
    subst ht
    exact ⟨rfl, ha'⟩
  · exact List.perm_middle
  · rintro m rfl
    obtain rfl : m = n := Option.some.inj ha'
    exact List.mem_cons_self

/-- A reservation has the net id `0` as long as its call has handed on no id, or has handed it on
to a teardown. -/
theorem Inv.reservation_zero (hi : Inv s) (hl : s.calls.lookup g = some c)
    (hs : settled c.pc = 0 ∨ ∃ n, c.pc = .unreserving n)
    (h : ⟨k, e⟩ ∈ s.edges.entries) (hg : e.generation = g) : e.netId = 0 := by
  by_contra hn
  have hlive : 0 < (liveTags s.edges).countP (·.generation = g) :=
    List.countP_pos_iff.mpr ⟨e.teardown, mem_liveTags.mpr ⟨k, e, h, hn, rfl⟩, by
      simp [EgressEdge.teardown, hg]⟩
  have hlaw := hi.law g
  simp only [owed, hl, Option.elim, fates, List.countP_append] at hlaw
  rcases hs with hs | ⟨n, hn'⟩
  · omega
  · have htorn : 0 < s.teardowns.countP (·.generation = g) :=
      List.countP_pos_iff.mpr ⟨_, hi.torn g c n hl hn', by simp [callTeardown]⟩
    have hone : settled c.pc = 1 := by rw [hn']; rfl
    omega

theorem Inv.giveUp (hi : Inv s) (hl : s.calls.lookup g = some c)
    (hz : settled c.pc = 0 ∨ ∃ n, c.pc = .unreserving n) (hk : allocated pc = allocated c.pc)
    (hs : settled pc = settled c.pc) (hu : ∀ n, pc ≠ .unreserving n) :
    Inv ((s.removeEgressEdges (ownReservation g c)).setPc g c pc) := by
  have hk' : ∀ n, allocated c.pc = some n → allocated pc = some n := fun n h => hk.trans h
  refine hi.callStep [] hl rfl hk' (fun n h => hi.alloc g c n hl (hk ▸ h)) hi.pool
    (fun k e h => hi.edge_mono hl hk' (mem_of_mem_remove h)) (by simp) ?_ (by simp [hs])
    (fun _ => id) (fun n h => absurd h (hu n)) hi.rows.remove
  have hlive : (liveTags (s.removeEgressEdges (ownReservation g c)).edges).Perm
      (liveTags s.edges) := by
    refine liveTags_removeReservations fun k e hm hp => hi.reservation_zero hl hz hm ?_
    simp only [ownReservation, decide_eq_true_eq] at hp
    exact hp.2
  exact (hlive.append_right _).append_right _

theorem Inv.reserve (hi : Inv s) (hl : s.calls.lookup g = some c) (hpc : c.pc = .reserving) :
    Inv (s.reserve g c) := by
  have hk : ∀ pc n, allocated c.pc = some n → allocated pc = some n := by simp [hpc, allocated]
  have hins : (∀ e, s.edges.lookup c.key = some e → e.netId = 0) →
      Inv { s.setPc g c .allocating with
        edges := s.edges.insert c.key (s.reservation g c) } := by
    intro hz
    have hlive : liveTags (s.edges.insert c.key (s.reservation g c)) = liveTags s.edges := by
      have hkeep := Dict.filter_erase (m := s.edges) (k := c.key)
        (fun e => decide (e.2.netId ≠ 0)) fun e he => by simp [hz e he]
      simp only [liveTags, AList.entries_insert, List.filter_cons]
      exact congrArg _ hkeep
    refine hi.callStep [] hl rfl (hk _) (by simp [allocated]) hi.pool ?_ (by simp)
      ?_ (by simp [settled, hpc]) (fun _ => id) (by simp) ?_
    · intro k e he
      rw [← Dict.lookup_eq_some, Dict.lookup_insert] at he
      split_ifs at he with hke
      · cases he
        refine ⟨by rw [hke]; rfl, ⟨{ c with pc := .allocating }, ?_, rfl, fun h => absurd rfl h⟩⟩
        simp [EgressEdge.teardown, reservation, Egress.setPc]
      · exact hi.edge_mono hl (hk _) (Dict.mem_of_lookup he)
    · simp only [fates, hlive, List.nil_append]
      exact List.Perm.refl _
    · exact hi.rows.mono fun t ht => hlive ▸ ht
  unfold Egress.reserve
  rcases hlk : s.edges.lookup c.key with - | e
  · exact hins (by simp [hlk])
  · simp only
    split_ifs with hlive
    · exact hi.setPc hl (hk _) (by simp [allocated]) (by simp [settled, hpc]) (by simp)
    · refine hins fun e' he' => ?_
      cases hlk.symm.trans he'
      by_contra hn
      exact hlive (.inl hn)

theorem Inv.promote (hi : Inv s) (hl : s.calls.lookup g = some c)
    (hpc : c.pc = .promoting n) : Inv (s.promote g c n) := by
  have hn : n ≠ 0 := hi.alloc g c n hl (by rw [hpc]; rfl)
  have hk : ∀ pc, allocated pc = some n → ∀ m, allocated c.pc = some m → allocated pc = some m := by
    intro pc hpc' m hm
    rw [hpc] at hm
    exact hpc'.trans hm
  have hstr : Inv (s.setPc g c (.stranded n)) :=
    hi.setPc hl (hk _ rfl) (fun m hm => by cases hm; exact hn) (by rw [hpc]; rfl) (by simp)
  unfold Egress.promote
  rcases hlk : s.edges.lookup c.key with - | e
  · exact hstr
  · simp only
    split_ifs with hg
    · have hmem := Dict.mem_of_lookup hlk
      have hz : e.netId = 0 := hi.reservation_zero hl (.inl (by rw [hpc]; rfl)) hmem hg
      obtain ⟨c', hl', ht, -⟩ := (hi.edge _ e hmem).2
      obtain rfl : c = c' := by
        rw [show e.teardown.generation = g from hg, hl] at hl'
        exact Option.some.inj hl'
      -- the promoted edge has the data of the call
      set f : EgressEdge → EgressEdge := fun e =>
        { e with netId := n, setupMs := s.clock - e.reservedAt } with hf
      have htag : (f e).teardown = callTeardown g c n := by
        rw [EgressEdge.teardown, callTeardown, EgressTeardown.mk.injEq] at ht
        simp only [hf, EgressEdge.teardown, callTeardown, EgressTeardown.mk.injEq]
        exact ⟨hg, ht.2.1, ht.2.2.1, ht.2.2.2.1, trivial⟩
      have hlive := liveTags_promote (f := f) hlk hz hn
      rw [htag] at hlive
      refine hi.callStep [callTeardown g c n] hl rfl (hk _ rfl)
        (fun m hm => by cases hm; exact hn) hi.pool ?_ ?_ ?_ (by rw [hpc]; rfl) (fun _ => id)
        (by simp) ?_
      · intro k e' he'
        obtain ⟨e0, h0, rfl | ⟨rfl, rfl⟩⟩ := mem_modify he'
        · exact hi.edge_mono hl (hk _ rfl) h0
        · obtain rfl : e = e0 := Dict.entries_inj hmem h0
          refine ⟨(hi.edge _ e hmem).1, ⟨{ c with pc := .persisting n }, ?_, ?_, fun _ => rfl⟩⟩
          · rw [htag]; exact AList.lookup_insert _
          · rw [htag]; rfl
      · intro t ht'
        rw [List.mem_singleton] at ht'
        subst ht'
        exact ⟨rfl, rfl⟩
      · exact (hlive.append_right _).append_right _
      · exact hi.rows.mono fun t ht' => hlive.mem_iff.mpr (List.mem_cons_of_mem _ ht')
    · exact hstr

theorem Inv.advanceCall {net : Net} (hi : Inv s) (hl : s.calls.lookup g = some c)
    (h : s.advanceCall net g c = some s') : Inv s' := by
  rcases hpc : c.pc with - | - | - | n | n | n | n | n | n | ⟨a, r⟩ <;>
    simp only [Egress.advanceCall, hpc, Option.some.injEq, reduceCtorEq] at h
  · exact h ▸ hi.reserve hl hpc
  · -- the allocated id is not the id of a reservation
    have hpool := hi.pool.allocate net
    rcases ha : s.pool.allocate net with ⟨- | n, pool⟩ <;>
      simp only [ha, Option.some.injEq] at h hpool <;> subst h <;>
      refine hi.callStep [] hl rfl (by simp [hpc, allocated]) ?_ hpool.1
        (fun _ _ hm => hi.edge_mono hl (by simp [hpc, allocated]) hm) (by simp) (List.Perm.refl _)
        (by simp [hpc, settled]) (fun _ => id) (by simp) hi.rows
    · simp [allocated]
    · intro m hm
      obtain rfl : n = m := Option.some.inj hm
      have hmin := hpool.2 n rfl
      unfold MIN_NET_ID at hmin
      omega
  · exact h ▸ hi.giveUp hl (.inl (by rw [hpc]; rfl)) (by rw [hpc]; rfl) (by rw [hpc]; rfl) (by simp)
  · exact h ▸ hi.dispatchOwn hl (by rw [hpc]; rfl) rfl (by rw [hpc]; rfl)
  · exact h ▸ hi.giveUp hl (.inr ⟨n, hpc⟩) (by rw [hpc]; rfl) (by rw [hpc]; rfl) (by simp)
  · exact h ▸ hi.promote hl hpc
  · exact h ▸ hi.dispatchOwn hl (by rw [hpc]; rfl) rfl (by rw [hpc]; rfl)

end call

/-! ## The invariant holds in every run -/

theorem Inv.call {g : ℕ} (hi : Inv s) (hl : s.calls.lookup g = none) (stack service : String)
    (initiatorIp : IpAddr) (initiatorDocker : Option String) (proxyIp : IpAddr) : Inv { s with
      calls := s.calls.insert g
        ⟨stack, service, initiatorIp, initiatorDocker, proxyIp, .reserving⟩ } := by
  have hown : ∀ {t c}, Owned s.calls t → Owned (s.calls.insert g c) t := by
    rintro t c ⟨c', hl', ht, hn⟩
    refine ⟨c', ?_, ht, hn⟩
    have hne : t.generation ≠ g := fun hg => by rw [hg, hl] at hl'; cases hl'
    rw [Dict.lookup_insert, if_neg hne]
    exact hl'
  refine ⟨hi.pool, fun k e h => ⟨(hi.edge k e h).1, hown (hi.edge k e h).2⟩,
    fun t h => ⟨hown (hi.fate t h).1, (hi.fate t h).2⟩, fun g' => ?_, fun g' c n h ha => ?_,
    fun g' c n h hpc => ?_, hi.rows⟩
  · refine (hi.law g').trans ?_
    simp only [owed, Dict.lookup_insert]
    split_ifs with hg
    · rw [hg, hl]; rfl
    · rfl
  all_goals
    simp only [Dict.lookup_insert] at h
    split_ifs at h with hg
  · cases h; cases ha
  · exact hi.alloc g' c n h ha
  · cases h; cases hpc
  · exact hi.torn g' c n h hpc

theorem Inv.teardownEdges (hi : Inv s) (pred : EgressKey → EgressEdge → Bool) :
    Inv (s.teardownEdges pred) :=
  hi.env rfl hi.pool (fun _ e h => ⟨e, mem_of_mem_remove h, rfl⟩) fates_teardownEdges (fun _ => id)
    hi.rows.remove

theorem Inv.modify {f : EgressEdge → EgressEdge} (hi : Inv s)
    (hf : ∀ e, (f e).teardown = e.teardown) (hr : RowsLive stream s.edges) :
    Inv { s with edges := s.edges.modify key f, stream := stream } := by
  have hlive : liveTags (s.edges.modify key f) = liveTags s.edges := liveTags_modify hf
  refine hi.env rfl hi.pool (fun k e h => ?_) ?_ (fun _ => id) (hr.mono fun t ht => hlive ▸ ht)
  · obtain ⟨e0, h0, rfl | ⟨rfl, rfl⟩⟩ := mem_modify h
    · exact ⟨e, h0, rfl⟩
    · exact ⟨e0, h0, hf e0⟩
  · simp only [fates, hlive]
    exact List.Perm.refl _

theorem persist_eq (s : Egress) (key : EgressKey) (geo : Ipv4Addr → SessionGeo) :
    ∃ more, s.persistEdgeDestinations key geo = { s with stream := s.stream ++ more } ∧
      ∀ m ∈ more, Filed s.edges m := by
  unfold persistEdgeDestinations
  rcases hl : s.edges.lookup key with - | e
  · exact ⟨[], by simp, by simp⟩
  · simp only
    split_ifs with hn
    · refine ⟨_, rfl, fun m hm => ?_⟩
      obtain ⟨d, -, rfl⟩ := List.mem_map.mp hm
      exact filed_destination hl hn _ _ _ _
    · exact ⟨[], by simp, by simp⟩

theorem record_eq (s : Egress) (key : EgressKey) (dst : Ipv4Addr) (stat : DestStat)
    (geo : SessionGeo) : ∃ f more, (∀ e, EgressEdge.teardown (f e) = e.teardown) ∧
      s.recordEgressDestination key dst stat geo =
        { s with edges := s.edges.modify key f, stream := s.stream ++ more } ∧
      ∀ m ∈ more, Filed s.edges m := by
  unfold recordEgressDestination
  rcases hl : s.edges.lookup key with - | e
  · refine ⟨id, [], fun _ => rfl, ?_, by simp⟩
    simp [Dict.modify_of_notMem id hl]
  · simp only
    split_ifs with hn
    · refine ⟨_, _, ?_, rfl, fun m hm => ?_⟩
      · intro e; rfl
      · rw [List.mem_singleton] at hm
        exact hm ▸ filed_destination hl hn _ _ _ _
    · refine ⟨_, [], ?_, by rw [List.append_nil], by simp⟩
      intro e; rfl

theorem Inv.step {a : EgressAction} (hi : Inv s) (h : s.step net a = some s') : Inv s' := by
  cases a with
  | call g stack service initiatorIp initiatorDocker proxyIp =>
    rcases hl : s.calls.lookup g with - | c <;> simp only [Egress.step, hl, reduceCtorEq] at h
    exact Option.some.inj h ▸ hi.call hl stack service initiatorIp initiatorDocker proxyIp
  | advance g =>
    simp only [Egress.step, Option.bind_eq_some_iff] at h
    obtain ⟨c, hl, h⟩ := h
    exact hi.advanceCall hl h
  | setup g proxyOk initOk ready =>
    simp only [Egress.step, Option.bind_eq_some_iff] at h
    obtain ⟨c, hl, h⟩ := h
    rcases hpc : c.pc with - | - | - | n | n | n | n | n | n | ⟨a, r⟩ <;>
      simp only [hpc, Option.some.injEq, reduceCtorEq] at h
    have hn : n ≠ 0 := hi.alloc g c n hl (by rw [hpc]; rfl)
    subst h
    refine hi.setPc hl ?_ ?_ ?_ ?_ <;> split_ifs <;> simp [hpc, allocated, settled, hn]
  | persist g geo =>
    simp only [Egress.step, Option.bind_eq_some_iff] at h
    obtain ⟨c, hl, h⟩ := h
    rcases hpc : c.pc with - | - | - | n | n | n | n | n | n | ⟨a, r⟩ <;>
      simp only [hpc, Option.some.injEq, reduceCtorEq] at h
    obtain ⟨more, he, hm⟩ := persist_eq s c.key geo
    have hn : n ≠ 0 := hi.alloc g c n hl (by rw [hpc]; rfl)
    rw [he] at h
    subst h
    refine hi.callStep [] hl rfl ?_ ?_ hi.pool (fun _ _ hm => hi.edge_mono hl ?_ hm) (by simp)
      (List.Perm.refl _) (by simp [hpc, settled]) (fun _ => id) (by simp) (hi.rows.append hm) <;>
      simp [hpc, allocated, hn]
  | record initiatorIp initiatorDocker dst count lastSeen blocked active geo =>
    obtain ⟨f, more, hf, he, hm⟩ := record_eq s (initiatorIp, initiatorDocker) dst
      ⟨lastSeen, count, blocked, active⟩ geo
    rw [Egress.step, he] at h
    exact Option.some.inj h ▸ hi.modify hf (hi.rows.append hm)
  | liveness initiatorIp initiatorDocker active =>
    cases h
    exact hi.modify (by intro e; rfl) hi.rows
  | nodeLost nodeIp | containersLost nodeIp live | reapIdle debounce =>
    exact Option.some.inj h ▸ hi.teardownEdges _
  | dispatch t =>
    simp only [Egress.step] at h
    split at h
    · next e rest hr =>
      cases h
      exact hi.env rfl hi.pool (fun _ e h => ⟨e, h, rfl⟩) (fates_dispatch hr)
        (fun _ => List.mem_cons_of_mem _) hi.rows
    · cases h
  | allocateOther =>
    cases h
    exact hi.env rfl (hi.pool.allocate _).1 (fun _ e h => ⟨e, h, rfl⟩) (List.Perm.refl _)
      (fun _ => id) hi.rows
  | freeOther id =>
    cases h
    exact hi.env rfl (hi.pool.free id) (fun _ e h => ⟨e, h, rfl⟩) (List.Perm.refl _)
      (fun _ h => h) hi.rows
  | tick ms =>
    cases h
    exact hi.env rfl hi.pool (fun _ e h => ⟨e, h, rfl⟩) (List.Perm.refl _) (fun _ => id) hi.rows

theorem inv_of_reach (h : Reach (step net) anyStep .new s) : Inv s :=
  h.invariant _ inv_new fun _ _ _ hi _ hs => hi.step hs

end Egress

end Nullnet.Server
