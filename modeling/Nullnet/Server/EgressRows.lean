import Nullnet.Server.SessionHistory

/-! # Egress rows over a stream of mutations

A destination of an edge has at most one open row (`OneOpen`): a row is inserted only if there was no
open row to refresh. A row that has ended is changed by one kind of mutation, an inactive report that
finds no open row. It gives the last ended row of the destination the time at which the last connection
*started* as its end. A report that is sent again, because the answer to the first one got lost, finds the
row ended when the connection was gone, and so moves the end back. -/

namespace Nullnet.Server

/-! ## Open rows -/

/-- At most one row of each destination is open. -/
def OneOpen (rows : List SessionRow) : Prop :=
  ∀ netId peerIp, rows.countP (·.isOpenDst netId peerIp) ≤ 1

section

variable {rows rows' : List SessionRow} {netId timestamp : ℕ} {peerIp : String} {geo : SessionGeo}
  {blocked : Bool}

theorem OneOpen.map (h : OneOpen rows) {f : SessionRow → SessionRow}
    (hf : ∀ n p r, (f r).isOpenDst n p = true → r.isOpenDst n p = true) : OneOpen (rows.map f) :=
  fun n p => by
    rw [List.countP_map]
    exact (List.countP_mono_left fun r _ => hf n p r).trans (h n p)

theorem isOpenDst_ended {r : SessionRow} {n : ℕ} {p : String} {t : ℕ} (h : r.endedAt = some t) :
    r.isOpenDst n p = false :=
  decide_eq_false fun ho => nomatch h.symm.trans ho.2.2

theorem isOpenDst_touch (n : ℕ) (p : String) (r : SessionRow) :
    (if r.isOpenDst netId peerIp then { r with
      lastSeen := timestamp
      blocked := blocked
      geo := if geo.countryCode.isSome ∧ r.geo.countryCode = none then geo else r.geo } else r).isOpenDst
      n p = r.isOpenDst n p := by
  split_ifs <;> rfl

theorem countP_touch (n : ℕ) (p : String) :
    (touch rows netId peerIp geo blocked timestamp).2.countP (·.isOpenDst n p) =
      rows.countP (·.isOpenDst n p) := by
  rw [touch, List.countP_map]
  exact List.countP_congr fun r _ => by rw [Function.comp_apply, isOpenDst_touch]

theorem oneOpen_touch (h : OneOpen rows) : OneOpen (touch rows netId peerIp geo blocked timestamp).2 :=
  fun n p => (countP_touch n p).le.trans (h n p)

theorem any_touch : (touch rows netId peerIp geo blocked timestamp).2.any (·.isOpenDst netId peerIp) =
    (touch rows netId peerIp geo blocked timestamp).1 := by
  simp only [touch, List.any_map, Function.comp_def, isOpenDst_touch]

theorem oneOpen_closeEgressDst (h : OneOpen rows) :
    OneOpen (closeEgressDst rows netId peerIp timestamp) := by
  refine h.map fun n p r hr => ?_
  split_ifs at hr
  · exact nomatch hr.symm.trans (isOpenDst_ended rfl)
  · exact hr

theorem OneOpen.insert (h : OneOpen rows) {row : SessionRow}
    (hnone : rows.any (·.isOpenDst row.netId row.peerIp) = false) : OneOpen (rows ++ [row]) := by
  intro n p
  rw [List.countP_append, List.countP_singleton]
  split_ifs with hrow
  · obtain ⟨rfl, rfl, -⟩ := of_decide_eq_true hrow
    have hzero : rows.countP (·.isOpenDst row.netId row.peerIp) = 0 :=
      List.countP_eq_zero.mpr fun r hr hopen => by
        have := List.any_eq_false.mp hnone r hr
        exact this hopen
    rw [hzero]
  · exact h n p

end

/-! ## The last ended row -/

/-- The row has ended and belongs to this destination of this edge. -/
def SessionRow.isEndedDst (netId : ℕ) (peerIp : String) (r : SessionRow) : Bool :=
  r.netId = netId ∧ r.peerIp = peerIp ∧ r.endedAt ≠ none

def lastEnded (rows : List SessionRow) (netId : ℕ) (peerIp : String) : Option SessionRow :=
  (rows.filter (·.isEndedDst netId peerIp)).getLast?

section

variable (netId timestamp : ℕ) (peerIp : String) (blocked : Bool)

theorem extendEndedEgressDst_cases : ∀ rows : List SessionRow,
    (extendEndedEgressDst rows netId peerIp blocked timestamp = none ∧
      ∀ r ∈ rows, r.isEndedDst netId peerIp = false) ∨
    ∃ before r after, rows = before ++ r :: after ∧ r.isEndedDst netId peerIp = true ∧
      (∀ r ∈ after, r.isEndedDst netId peerIp = false) ∧
      extendEndedEgressDst rows netId peerIp blocked timestamp = some (before ++
        { r with lastSeen := timestamp, endedAt := some timestamp, blocked := blocked } :: after)
  | [] => .inl ⟨rfl, fun _ h => absurd h List.not_mem_nil⟩
  | r :: rows => by
    rcases extendEndedEgressDst_cases rows with ⟨heq, hnone⟩ | ⟨before, r', after, rfl, hr', hafter, heq⟩
    · by_cases hr : r.isEndedDst netId peerIp = true
      · refine .inr ⟨[], r, rows, rfl, hr, hnone, ?_⟩
        rw [extendEndedEgressDst, heq]
        exact if_pos (of_decide_eq_true hr)
      · refine .inl ⟨?_, fun x hx => ?_⟩
        · rw [extendEndedEgressDst, heq]
          exact if_neg fun h => hr (decide_eq_true h)
        · rcases List.mem_cons.mp hx with rfl | hx
          · exact Bool.eq_false_of_not_eq_true hr
          · exact hnone x hx
    · refine .inr ⟨r :: before, r', after, rfl, hr', hafter, ?_⟩
      rw [List.cons_append, extendEndedEgressDst, heq]

variable {netId timestamp peerIp blocked} {rows : List SessionRow}

theorem lastEnded_none (h : ∀ r ∈ rows, r.isEndedDst netId peerIp = false) :
    lastEnded rows netId peerIp = none := by
  have hfilter : rows.filter (·.isEndedDst netId peerIp) = [] :=
    List.filter_eq_nil_iff.mpr fun r hr => by rw [h r hr]; exact Bool.false_ne_true
  rw [lastEnded, hfilter, List.getLast?_nil]

theorem lastEnded_some {before after : List SessionRow} {r : SessionRow}
    (hr : r.isEndedDst netId peerIp = true) (h : ∀ r ∈ after, r.isEndedDst netId peerIp = false) :
    lastEnded (before ++ r :: after) netId peerIp = some r := by
  have hfilter : after.filter (·.isEndedDst netId peerIp) = [] :=
    List.filter_eq_nil_iff.mpr fun r hr => by rw [h r hr]; exact Bool.false_ne_true
  rw [lastEnded, List.filter_append, List.filter_cons_of_pos hr, hfilter, List.getLast?_concat]

theorem oneOpen_extend {rows' : List SessionRow} (h : OneOpen rows)
    (he : extendEndedEgressDst rows netId peerIp blocked timestamp = some rows') : OneOpen rows' := by
  obtain ⟨heq, -⟩ | ⟨before, r, after, rfl, hr, -, heq⟩ := extendEndedEgressDst_cases netId
    timestamp peerIp blocked rows
  · exact nomatch heq.symm.trans he
  · cases heq.symm.trans he
    intro n p
    refine le_trans (le_of_eq ?_) (h n p)
    have hopen : r.isOpenDst n p = false := decide_eq_false fun ho => (of_decide_eq_true hr).2.2 ho.2.2
    rw [List.countP_append, List.countP_append, List.countP_cons, List.countP_cons, hopen,
      isOpenDst_ended rfl]

end

variable {rows : List SessionRow}

/-- **One open row per destination** is kept by every mutation. -/
theorem OneOpen.apply (h : OneOpen rows) (m : SessionMutation) :
    OneOpen (m.apply rows) := by
  cases m with
  | egress row active timestamp =>
    have htouch : OneOpen (touch rows row.netId row.peerIp row.geo row.blocked row.lastSeen).2 :=
      oneOpen_touch h
    have hany : _ = (touch rows row.netId row.peerIp row.geo row.blocked row.lastSeen).1 := any_touch
    simp only [SessionMutation.apply]
    generalize touch rows row.netId row.peerIp row.geo row.blocked row.lastSeen = touched at *
    obtain ⟨found, rows⟩ := touched
    cases found with
    | true =>
      split_ifs
      · exact htouch
      · exact oneOpen_closeEgressDst htouch
    | false =>
      dsimp only
      split_ifs
      · exact htouch.insert hany
      · split
        · next he => exact oneOpen_extend htouch he
        · exact oneOpen_closeEgressDst (htouch.insert hany)
  | closeEgress | closeAll | interrupt =>
    refine h.map fun n p r hr => ?_
    split_ifs at hr
    · exact Bool.noConfusion (hr.symm.trans (isOpenDst_ended rfl))
    · exact hr

theorem OneOpen.foldl (h : OneOpen rows) (stream : List SessionMutation) :
    OneOpen (stream.foldl SessionMutation.apply rows) := by
  induction stream generalizing rows with
  | nil => exact h
  | cons m stream ih => exact ih (h.apply m)

theorem oneOpen_history (stream : List SessionMutation) : OneOpen (history stream) :=
  have hnil : OneOpen [] := fun _ _ => Nat.zero_le 1
  hnil.foldl stream

/-! ## The ends of rows -/

/-- If the row has ended, it still has, and not earlier. -/
def SessionRow.EndsBy (r r' : SessionRow) : Prop := ∀ t ∈ r.endedAt, ∃ t' ∈ r'.endedAt, t ≤ t'

/-- No end of a row is moved to an earlier time. -/
def EndsKept (rows rows' : List SessionRow) : Prop :=
  ∀ (i : ℕ) (r : SessionRow), rows[i]? = some r → ∃ r', rows'[i]? = some r' ∧ r.EndsBy r'

/-- A mutation that does not end a row before its end: an inactive report that finds no open row of its
destination is about a connection that started after the last row ended. -/
def SessionMutation.Later (rows : List SessionRow) : SessionMutation → Prop
  | .egress row false _ => rows.any (·.isOpenDst row.netId row.peerIp) = false →
    ∀ r ∈ lastEnded rows row.netId row.peerIp, ∀ t ∈ r.endedAt, t ≤ row.lastSeen
  | _ => True

section

variable {rows rows' rows'' : List SessionRow} {netId timestamp : ℕ} {peerIp : String} {geo : SessionGeo}
  {blocked : Bool} {r r' : SessionRow}

theorem SessionRow.EndsBy.of_eq (h : r'.endedAt = r.endedAt) : r.EndsBy r' :=
  fun t ht => ⟨t, h ▸ ht, le_rfl⟩

theorem EndsKept.of_map {f : SessionRow → SessionRow} (hf : ∀ r : SessionRow, r.EndsBy (f r)) :
    EndsKept rows (rows.map f) := fun i r hr =>
  ⟨f r, by rw [List.getElem?_map, hr]; rfl, hf r⟩

theorem EndsKept.append (row : SessionRow) : EndsKept rows (rows ++ [row]) := fun _ r hr =>
  ⟨r, List.getElem?_append_left (List.getElem?_eq_some_iff.mp hr).1 ▸ hr, .of_eq rfl⟩

theorem EndsKept.trans (h : EndsKept rows rows') (h' : EndsKept rows' rows'') : EndsKept rows rows'' := by
  intro i r hr
  obtain ⟨r', hr', hends⟩ := h i r hr
  obtain ⟨r'', hr'', hends'⟩ := h' i r' hr'
  refine ⟨r'', hr'', fun t ht => ?_⟩
  obtain ⟨t', ht', hle⟩ := hends t ht
  obtain ⟨t'', ht'', hle'⟩ := hends' t' ht'
  exact ⟨t'', ht'', hle.trans hle'⟩

theorem endsBy_of_open (h : r.endedAt = none) : r.EndsBy r' := fun _ ht =>
  nomatch h.symm.trans ht

theorem endsKept_touch : EndsKept rows (touch rows netId peerIp geo blocked timestamp).2 := by
  refine .of_map fun r => ?_
  split_ifs
  all_goals exact .of_eq rfl

theorem endsKept_closeEgressDst : EndsKept rows (closeEgressDst rows netId peerIp timestamp) := by
  refine .of_map fun r => ?_
  split_ifs with h
  · exact endsBy_of_open (of_decide_eq_true h).2.2
  · exact .of_eq rfl

theorem endsKept_change {before after : List SessionRow} :
    EndsKept (before ++ r :: after) (before ++ r' :: after) ↔ r.EndsBy r' := by
  have hat : ∀ x : SessionRow, (before ++ x :: after)[before.length]? = some x := fun x => by
    rw [List.getElem?_append_right le_rfl, Nat.sub_self, List.getElem?_cons_zero]
  constructor
  · intro h
    obtain ⟨x, hx, hends⟩ := h before.length r (hat r)
    obtain rfl := Option.some.inj ((hat r').symm.trans hx)
    exact hends
  · intro h i x hx
    rcases Nat.lt_trichotomy i before.length with hi | rfl | hi
    · rw [List.getElem?_append_left hi] at hx
      exact ⟨x, by rw [List.getElem?_append_left hi, hx], .of_eq rfl⟩
    · obtain rfl := Option.some.inj ((hat r).symm.trans hx)
      exact ⟨r', hat r', h⟩
    · obtain ⟨j, rfl⟩ := Nat.exists_eq_add_of_lt hi
      rw [Nat.add_assoc, List.getElem?_append_right (Nat.le_add_right _ _), Nat.add_sub_cancel_left,
        List.getElem?_cons_succ] at hx ⊢
      exact ⟨x, hx, .of_eq rfl⟩

theorem touch_none (h : rows.any (·.isOpenDst netId peerIp) = false) :
    touch rows netId peerIp geo blocked timestamp = (false, rows) := by
  have hsame : ∀ r ∈ rows, r.isOpenDst netId peerIp = false := fun r hr =>
    Bool.eq_false_of_not_eq_true (List.any_eq_false.mp h r hr)
  refine Prod.ext h ((List.map_congr_left fun r hr => ?_).trans (List.map_id rows))
  rw [hsame r hr]
  rfl

end

/-- **The ends of rows** are kept by a mutation exactly if it is not a report about a connection that
started before the end that is recorded. -/
theorem endsKept_apply_iff (rows : List SessionRow) (m : SessionMutation) :
    EndsKept rows (m.apply rows) ↔ m.Later rows := by
  cases m with
  | egress row active timestamp =>
    rcases Bool.eq_false_or_eq_true (rows.any (·.isOpenDst row.netId row.peerIp)) with hany | hany
    · -- an open row is refreshed, and ended if the report is inactive
      have hlater : (SessionMutation.egress row active timestamp).Later rows := by
        cases active
        · exact fun h => nomatch hany.symm.trans h
        · trivial
      refine iff_of_true ?_ hlater
      have htouch : EndsKept rows (touch rows row.netId row.peerIp row.geo row.blocked row.lastSeen).2 :=
        endsKept_touch
      simp only [SessionMutation.apply]
      rw [show touch rows row.netId row.peerIp row.geo row.blocked row.lastSeen =
        (true, (touch rows row.netId row.peerIp row.geo row.blocked row.lastSeen).2) from Prod.ext hany rfl]
      split_ifs
      · exact htouch
      · exact htouch.trans endsKept_closeEgressDst
    · simp only [SessionMutation.apply, touch_none hany]
      cases active with
      | true => exact iff_of_true (.append row) trivial
      | false =>
        simp only [Bool.false_eq_true, if_false, SessionMutation.Later, hany, true_imp_iff]
        obtain ⟨heq, hnone⟩ | ⟨before, r, after, rfl, hr, hafter, heq⟩ :=
          extendEndedEgressDst_cases row.netId row.lastSeen row.peerIp row.blocked rows
        · simp only [heq, lastEnded_none hnone]
          exact iff_of_true ((EndsKept.append row).trans endsKept_closeEgressDst) (by rintro _ ⟨⟩)
        · simp only [heq, lastEnded_some hr hafter]
          rw [endsKept_change]
          constructor
          · rintro h _ ⟨⟩ t ht
            obtain ⟨t', ht', hle⟩ := h t ht
            cases ht'
            exact hle
          · exact fun h t ht => ⟨row.lastSeen, rfl, h r rfl t ht⟩
  | closeEgress netId timestamp =>
    refine iff_of_true (.of_map fun r => ?_) trivial
    split_ifs with h
    · exact endsBy_of_open h.2
    · exact .of_eq rfl
  | closeAll | interrupt =>
    refine iff_of_true (.of_map fun r => ?_) trivial
    split_ifs with h
    · exact endsBy_of_open h
    · exact .of_eq rfl

theorem history_take_succ {stream : List SessionMutation} {k : ℕ} {m : SessionMutation}
    (h : stream[k]? = some m) : history (stream.take (k + 1)) = m.apply (history (stream.take k)) := by
  rw [List.take_add_one, h, history_append]
  rfl

/-- **The history of egress sessions**: over every stream of mutations, each destination has at most one
open row at any time; and no end of a row is moved to an earlier time exactly if each mutation meets the
condition. -/
theorem egress_history (stream : List SessionMutation) :
    (∀ k, OneOpen (history (stream.take k))) ∧
    ((∀ k, EndsKept (history (stream.take k)) (history (stream.take (k + 1)))) ↔
      ∀ (k : ℕ) (m : SessionMutation), stream[k]? = some m → m.Later (history (stream.take k))) := by
  refine ⟨fun k => oneOpen_history _, fun h k m hm => ?_, fun h k => ?_⟩
  · have hk := h k
    rw [history_take_succ hm] at hk
    exact (endsKept_apply_iff _ m).mp hk
  · cases hm : stream[k]? with
    | none =>
      rw [List.take_add_one, hm, Option.toList_none, List.append_nil]
      exact fun i r hr => ⟨r, hr, .of_eq rfl⟩
    | some m =>
      rw [history_take_succ hm]
      exact (endsKept_apply_iff _ m).mpr (h k m hm)

/-! ## A report that is sent again -/

def SessionMutation.timestamp : SessionMutation → ℕ
  | .egress _ _ t | .closeEgress _ t | .closeAll t | .interrupt t => t

/-- Time does not go back, and connections started before they are reported. -/
def Timed (stream : List SessionMutation) : Prop :=
  stream.Pairwise (fun m m' => m.timestamp ≤ m'.timestamp) ∧
    ∀ row active t, .egress row active t ∈ stream → row.lastSeen ≤ t

/-- A destination that was last connected to at `start`. -/
def reported (start : ℕ) : SessionRow :=
  ⟨"shop", "web", 101, "192.0.2.7", ⟨none, none, none⟩, false, ⟨.v4 1#32, none, .v4 2#32, 5⟩, start, start, none,
    false⟩

/-- The connection started at 10 and was gone at 100; the report of that is sent again, and ends the row
at 10. -/
theorem end_moved_back : ∃ stream : List SessionMutation, Timed stream ∧
    (history (stream.take 2)).map SessionRow.endedAt = [some 100] ∧
    (history (stream.take 3)).map SessionRow.endedAt = [some 10] ∧
    ¬∀ k, EndsKept (history (stream.take k)) (history (stream.take (k + 1))) := by
  refine ⟨[.egress (reported 10) true 12, .egress (reported 10) false 100, .egress (reported 10) false 101],
    ⟨by decide, ?_⟩, by decide, by decide, fun h => ?_⟩
  · intro row active t hmem
    simp only [List.mem_cons, SessionMutation.egress.injEq, List.not_mem_nil, or_false] at hmem
    rcases hmem with ⟨rfl, -, rfl⟩ | ⟨rfl, -, rfl⟩ | ⟨rfl, -, rfl⟩ <;> decide
  · obtain ⟨r', hr', hends⟩ := h 2 0 _ rfl
    cases hr'
    obtain ⟨t', ht', hle⟩ := hends 100 rfl
    cases ht'
    exact absurd hle (by decide)

end Nullnet.Server
