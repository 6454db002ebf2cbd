import Nullnet.Lib.Dict
import Nullnet.Server.Net

/-! # The history of egress sessions

The server keeps a table with one row per destination that a replica contacted through its egress
edge. Rows are not written directly: mutations are submitted to a stream, and a writer applies them
in order (`SessionMutation.apply`). A row without an end is *open*. -/

namespace Nullnet.Server

/-- Where an address is; each part may be unknown. -/
structure SessionGeo where
  countryCode : Option String
  asn : Option String
  org : Option String
  deriving DecidableEq

/-- The direction-specific part of an egress row. -/
structure EgressDetail where
  nodeIp : IpAddr
  container : Option String
  proxyIp : IpAddr
  setupMs : ℕ
  deriving DecidableEq

/-- An egress row of the history; `interrupted` is the mark that an interruption leaves on it. -/
structure SessionRow where
  stack : String
  service : String
  netId : ℕ
  peerIp : String
  geo : SessionGeo
  blocked : Bool
  detail : EgressDetail
  startedAt : ℕ
  lastSeen : ℕ
  endedAt : Option ℕ
  interrupted : Bool
  deriving DecidableEq

/-- The mutations that reach egress rows. -/
inductive SessionMutation
  | egress (row : SessionRow) (active : Bool) (timestamp : ℕ)
  | closeEgress (netId timestamp : ℕ)
  | closeAll (timestamp : ℕ)
  | interrupt (timestamp : ℕ)
  deriving DecidableEq

/-- The row is open and belongs to this destination of this edge. -/
def SessionRow.isOpenDst (netId : ℕ) (peerIp : String) (r : SessionRow) : Bool :=
  r.netId = netId ∧ r.peerIp = peerIp ∧ r.endedAt = none

/-- Refresh the open rows of a destination, and tell whether there are any. -/
def touch (rows : List SessionRow) (netId : ℕ) (peerIp : String) (geo : SessionGeo)
    (blocked : Bool) (timestamp : ℕ) : Bool × List SessionRow :=
  (rows.any (·.isOpenDst netId peerIp), rows.map fun r =>
    if r.isOpenDst netId peerIp then
      { r with
        lastSeen := timestamp
        blocked := blocked
        geo := if geo.countryCode.isSome ∧ r.geo.countryCode = none then geo else r.geo }
    else r)

def closeEgressDst (rows : List SessionRow) (netId : ℕ) (peerIp : String) (timestamp : ℕ) :
    List SessionRow :=
  rows.map fun r => if r.isOpenDst netId peerIp then { r with endedAt := some timestamp } else r

def closeEgressEdge (rows : List SessionRow) (netId timestamp : ℕ) : List SessionRow :=
  rows.map fun r =>
    if r.netId = netId ∧ r.endedAt = none then { r with endedAt := some timestamp } else r

/-- Extend the last ended row of a destination; `none` if there is no such row. -/
def extendEndedEgressDst (rows : List SessionRow) (netId : ℕ) (peerIp : String) (blocked : Bool)
    (timestamp : ℕ) : Option (List SessionRow) :=
  match rows with
  | [] => none
  | r :: rows =>
    -- a later row comes first
    match extendEndedEgressDst rows netId peerIp blocked timestamp with
    | some rows => some (r :: rows)
    | none =>
      if r.netId = netId ∧ r.peerIp = peerIp ∧ r.endedAt ≠ none then
        some ({ r with lastSeen := timestamp, endedAt := some timestamp, blocked := blocked } ::
          rows)
      else none

/-- Apply a mutation to the rows, in the order of their ids. -/
def SessionMutation.apply (rows : List SessionRow) : SessionMutation → List SessionRow
  | .egress row active timestamp =>
    match touch rows row.netId row.peerIp row.geo row.blocked row.lastSeen with
    | (true, rows) => if active then rows else closeEgressDst rows row.netId row.peerIp timestamp
    | (false, rows) =>
      if active then rows ++ [row]
      else
        match extendEndedEgressDst rows row.netId row.peerIp row.blocked row.lastSeen with
        | some rows => rows
        | none => closeEgressDst (rows ++ [row]) row.netId row.peerIp row.lastSeen
  | .closeEgress netId timestamp => closeEgressEdge rows netId timestamp
  | .closeAll timestamp =>
    rows.map fun r => if r.endedAt = none then { r with endedAt := some timestamp } else r
  | .interrupt timestamp =>
    rows.map fun r =>
      if r.endedAt = none then { r with endedAt := some timestamp, interrupted := true } else r

/-- The rows after a stream of mutations, oldest first. -/
def history (stream : List SessionMutation) : List SessionRow :=
  stream.foldl SessionMutation.apply []

/-! ## Open rows -/

/-- Some open row carries the net id `n`. -/
def OpenNet (rows : List SessionRow) (n : ℕ) : Prop := ∃ r ∈ rows, r.netId = n ∧ r.endedAt = none

variable {rows : List SessionRow} {n netId timestamp : ℕ} {peerIp : String} {row : SessionRow}
  {blocked : Bool}

theorem openNet_map {f : SessionRow → SessionRow} (hn : ∀ r, (f r).netId = r.netId)
    (he : ∀ r, (f r).endedAt = none → r.endedAt = none)
    (h : OpenNet (rows.map f) n) : OpenNet rows n := by
  obtain ⟨r', hr', hnet, hopen⟩ := h
  obtain ⟨r, hr, rfl⟩ := List.mem_map.mp hr'
  exact ⟨r, hr, (hn r).symm.trans hnet, he r hopen⟩

theorem openNet_append (h : OpenNet (rows ++ [row]) n) : OpenNet rows n ∨ n = row.netId := by
  obtain ⟨r, hr, hnet, hopen⟩ := h
  rcases List.mem_append.mp hr with hr | hr
  · exact .inl ⟨r, hr, hnet, hopen⟩
  · rw [List.mem_singleton] at hr
    exact .inr (by rw [← hnet, hr])

theorem openNet_touch {geo : SessionGeo}
    (h : OpenNet (touch rows netId peerIp geo blocked timestamp).2 n) : OpenNet rows n := by
  refine openNet_map (fun r => ?_) (fun r => ?_) h <;> split_ifs <;> simp

theorem openNet_closeEgressDst
    (h : OpenNet (closeEgressDst rows netId peerIp timestamp) n) : OpenNet rows n := by
  refine openNet_map (fun r => ?_) (fun r => ?_) h <;> split_ifs <;> simp

theorem openNet_extend : ∀ {rows rows' : List SessionRow},
      extendEndedEgressDst rows netId peerIp blocked timestamp = some rows' →
      OpenNet rows' n → OpenNet rows n
  | [], rows', h, _ => by simp [extendEndedEgressDst] at h
  | r :: rows, rows', h, ho => by
    simp only [extendEndedEgressDst] at h
    rcases hx : extendEndedEgressDst rows netId peerIp blocked timestamp with - | rows'' <;>
      simp only [hx] at h
    · split_ifs at h
      cases h
      obtain ⟨r', hr', hnet, hopen⟩ := ho
      rcases List.mem_cons.mp hr' with rfl | hr'
      · cases hopen
      · exact ⟨r', List.mem_cons_of_mem _ hr', hnet, hopen⟩
    · cases h
      obtain ⟨r', hr', hnet, hopen⟩ := ho
      rcases List.mem_cons.mp hr' with rfl | hr'
      · exact ⟨r', List.mem_cons_self, hnet, hopen⟩
      · obtain ⟨r'', hr'', h''⟩ := openNet_extend hx ⟨r', hr', hnet, hopen⟩
        exact ⟨r'', List.mem_cons_of_mem _ hr'', h''⟩

/-- **A record of a destination** opens a row of its own net id, if any. -/
theorem openNet_egress {active : Bool}
    (h : OpenNet ((SessionMutation.egress row active timestamp).apply rows) n) :
    OpenNet rows n ∨ n = row.netId := by
  simp only [SessionMutation.apply] at h
  rcases ht : touch rows row.netId row.peerIp row.geo row.blocked row.lastSeen with ⟨b, rows'⟩
  have hkeep : ∀ {m}, OpenNet rows' m → OpenNet rows m := fun ho =>
    openNet_touch (by rw [ht]; exact ho)
  rw [ht] at h
  cases b with
  | true =>
    simp only at h
    split_ifs at h
    · exact .inl (hkeep h)
    · exact .inl (hkeep (openNet_closeEgressDst h))
  | false =>
    simp only at h
    split_ifs at h
    · exact (openNet_append h).imp_left hkeep
    · split at h
      · next hx => exact .inl (hkeep (openNet_extend hx h))
      · exact (openNet_append (openNet_closeEgressDst h)).imp_left hkeep

/-- **Closing an edge** leaves no row of its net id open. -/
theorem openNet_closeEgress
    (h : OpenNet ((SessionMutation.closeEgress netId timestamp).apply rows) n) :
    OpenNet rows n ∧ n ≠ netId := by
  obtain ⟨r', hr', hnet, hopen⟩ := h
  obtain ⟨r, hr, rfl⟩ := List.mem_map.mp hr'
  split_ifs at hnet hopen with hc
  refine ⟨⟨r, hr, hnet, hopen⟩, ?_⟩
  rintro rfl
  exact hc ⟨hnet, hopen⟩

theorem not_openNet_closeAll : ¬ OpenNet ((SessionMutation.closeAll timestamp).apply rows) n ∧
      ¬ OpenNet ((SessionMutation.interrupt timestamp).apply rows) n := by
  constructor <;>
  · rintro ⟨r', hr', -, hopen⟩
    obtain ⟨r, -, rfl⟩ := List.mem_map.mp hr'
    split_ifs at hopen with hc
    exact hc hopen

theorem history_append (stream more : List SessionMutation) :
    history (stream ++ more) = more.foldl SessionMutation.apply (history stream) :=
  List.foldl_append

end Nullnet.Server
