import Nullnet.Lib.Runs
import Nullnet.Server.Changes

/-! # The history rows of backend sessions

A build that finishes its backend session opens a history row, and attaches the id of the row to the
session afterwards, under the lock on the sessions. In between the session may have been removed, or
replaced by one of a later generation. Every removal closes the row that was attached, after the lock is
released; `persist_backend_session` closes the row that it can no longer attach.

`Orchestrator.step` interleaves the sections under the lock and the calls between them in all ways. No
mutation is dropped. A row is in one place at a time: it is to be attached, attached, to be closed, or
closed (`Inv.rows`). -/

namespace Nullnet.Server.BackendHistory

open Nullnet.Lib

/-! ## Model -/

/-- A claim of a trigger port. For the proofs it comes with the port, and it names its history row. -/
structure Generation where
  id : ℕ
  key : BackendKey
  deriving DecidableEq

structure Session where
  generation : Generation
  historyId : Option Generation
  building : Bool

inductive Mutation
  | openBackend (row : Generation)
  | closeBackend (row : Generation)
  deriving DecidableEq

structure Orchestrator where
  sessions : Dict BackendKey Session := ∅
  /-- The builds that have not finished their session. -/
  builds : List Generation := []
  /-- The finished sessions that `persist_backend_session` has not begun with. -/
  pending : List Generation := []
  /-- The rows that it has opened, and not attached yet. -/
  opened : List Generation := []
  /-- The calls of `close_backend` that are due. -/
  closing : List Generation := []
  /-- What was submitted, the newest first. -/
  log : List Mutation := []
  nextId : ℕ := 0
  /-- For the statement: the generations that were finished. -/
  finished : List Generation := []

namespace Orchestrator

def holds (o : Orchestrator) (g : Generation) : Bool :=
  (o.sessions.lookup g.key).any fun x => x.generation = g

def claimBackendSession (o : Orchestrator) (key : BackendKey) : Orchestrator :=
  if (o.sessions.lookup key).isSome then o else
  { o with
    sessions := o.sessions.insert key ⟨⟨o.nextId, key⟩, none, true⟩
    builds := ⟨o.nextId, key⟩ :: o.builds
    nextId := o.nextId + 1 }

def finishBackendSession (o : Orchestrator) (g : Generation) : Orchestrator :=
  let o := { o with builds := o.builds.erase g }
  if o.holds g then
    { o with
      sessions := o.sessions.modify g.key fun x => { x with building := false }
      pending := g :: o.pending
      finished := g :: o.finished }
  else o

/-- The first part of `persist_backend_session`. -/
def openBackend (o : Orchestrator) (g : Generation) : Orchestrator :=
  { o with
    pending := o.pending.erase g
    opened := g :: o.opened
    log := .openBackend g :: o.log }

def attach (o : Orchestrator) (g : Generation) : Orchestrator :=
  let o := { o with opened := o.opened.erase g }
  if o.holds g then
    { o with sessions := o.sessions.modify g.key fun x => { x with historyId := some g } }
  else { o with closing := g :: o.closing }

def remove (o : Orchestrator) (key : BackendKey) : Orchestrator :=
  match o.sessions.lookup key with
  | some x =>
    { o with sessions := o.sessions.erase key, closing := x.historyId.toList ++ o.closing }
  | none => o

def cancelBackendSession (o : Orchestrator) (key : BackendKey) (g : Generation) : Orchestrator :=
  if (o.sessions.lookup key).any fun x => x.generation = g then o.remove key else o

def cancelBackendBuild (o : Orchestrator) (key : BackendKey) : Orchestrator :=
  if (o.sessions.lookup key).any (·.building) then { o with sessions := o.sessions.erase key } else o

/-- The environment says which sessions have been idle for long enough. -/
def takeDueBackendSessions (o : Orchestrator) (idle : List BackendKey) : Orchestrator :=
  (o.sessions.keysWith fun key x => !x.building && idle.contains key).foldl remove o

def forgetBackendSessions (o : Orchestrator) (service : String) (r : ReplicaId) (ports : List ℕ) :
    Orchestrator :=
  (ports.map fun port => ⟨service, r, port⟩).foldl remove o

def closeBackend (o : Orchestrator) (g : Generation) : Orchestrator :=
  { o with closing := o.closing.erase g, log := .closeBackend g :: o.log }

end Orchestrator

inductive Action
  | claim (key : BackendKey)
  | finish (g : Generation)
  | persist (g : Generation)
  | attach (g : Generation)
  | cancel (key : BackendKey) (g : Generation)
  | cancelBuild (key : BackendKey)
  | takeDue (idle : List BackendKey)
  | forget (service : String) (r : ReplicaId) (ports : List ℕ)
  | close (g : Generation)

/-- One step. A build finishes its session once, and what follows is done once for each. -/
def Orchestrator.step (o : Orchestrator) : Action → Option Orchestrator
  | .claim key => some (o.claimBackendSession key)
  | .finish g => if g ∈ o.builds then some (o.finishBackendSession g) else none
  | .persist g => if g ∈ o.pending then some (o.openBackend g) else none
  | .attach g => if g ∈ o.opened then some (o.attach g) else none
  | .cancel key g => some (o.cancelBackendSession key g)
  | .cancelBuild key => some (o.cancelBackendBuild key)
  | .takeDue idle => some (o.takeDueBackendSessions idle)
  | .forget service r ports => some (o.forgetBackendSessions service r ports)
  | .close g => if g ∈ o.closing then some (o.closeBackend g) else none

/-! ## Seats and tallies -/

/-- The session is of the generation, and so is its row. -/
def Session.IsOf (g : Generation) (x : Session) : Prop :=
  x.generation = g ∧ ∀ row, x.historyId = some row → row = g

/-- What a session in the map is for a generation. -/
structure Seat where
  attached : ℕ := 0
  held : Bool := false
  building : Bool := false

def seat (x : Option Session) (g : Generation) : Seat where
  attached := (x.any fun x => x.historyId = some g).toNat
  held := x.any fun x => x.generation = g
  building := x.any fun x => x.generation = g && x.building

theorem seat_eq_default {x : Option Session} {g₀ : Generation} (hx : ∀ x' ∈ x, x'.IsOf g₀)
    {g : Generation} (hne : g ≠ g₀) : seat x g = {} := by
  cases x with
  | none => rfl
  | some x =>
    obtain ⟨rfl, hrow⟩ := hx x rfl
    have hid : x.historyId ≠ some g := fun hid => hne (hrow g hid)
    simp [seat, hid, hne.symm]

theorem seat_of_isOf {x : Session} {g : Generation} (h : x.IsOf g) :
    seat (some x) g = ⟨x.historyId.isSome.toNat, true, x.building⟩ := by
  obtain ⟨rfl, hrow⟩ := h
  cases hid : x.historyId with
  | none => simp [seat, hid]
  | some row => simp [seat, hid, hrow row hid]

/-- Where a generation and its row are, and how often. -/
structure Tally extends Seat where
  builds : ℕ := 0
  pending : ℕ := 0
  opened : ℕ := 0
  closing : ℕ := 0
  opens : ℕ := 0
  closes : ℕ := 0
  finished : ℕ := 0

structure Tally.Good (t : Tally) : Prop where
  /-- A row is in one place. -/
  rows : t.opens = t.opened + t.attached + t.closing + t.closes
  single : t.builds + t.pending + t.opens ≤ 1
  left : 0 < t.closing + t.closes → t.held = false
  building : t.building = true → t.pending + t.opens = 0
  finished : t.finished = t.pending + t.opens

namespace Orchestrator

def tally (o : Orchestrator) (g : Generation) : Tally where
  toSeat := seat (o.sessions.lookup g.key) g
  builds := o.builds.count g
  pending := o.pending.count g
  opened := o.opened.count g
  closing := o.closing.count g
  opens := o.log.count (.openBackend g)
  closes := o.log.count (.closeBackend g)
  finished := o.finished.count g

structure Inv (o : Orchestrator) : Prop where
  good : ∀ g, (o.tally g).Good
  fresh : ∀ g, o.nextId ≤ g.id → o.tally g = {}
  keyed : ∀ key x, o.sessions.lookup key = some x → ∃ g, g.key = key ∧ x.IsOf g
  ordered : ∀ l l' g, o.log = l ++ .closeBackend g :: l' → .openBackend g ∈ l'

variable {o o' : Orchestrator} {g₀ : Generation} {x y : Option Session} {key : BackendKey}

/-- The session of a port is replaced by one of the same generation, or comes, or goes. -/
structure Replaced (o o' : Orchestrator) (g₀ : Generation) (x y : Option Session) : Prop where
  before : o.sessions.lookup g₀.key = x
  after : ∀ key, o'.sessions.lookup key = if key = g₀.key then y else o.sessions.lookup key
  isOf : ∀ x' ∈ x, x'.IsOf g₀
  isOf' : ∀ y' ∈ y, y'.IsOf g₀

theorem Replaced.seat (h : Replaced o o' g₀ x y) {g : Generation} (hne : g ≠ g₀) :
    seat (o'.sessions.lookup g.key) g = seat (o.sessions.lookup g.key) g := by
  rw [h.after]
  split_ifs with hk
  · rw [hk, h.before, seat_eq_default h.isOf hne, seat_eq_default h.isOf' hne]
  · rfl

theorem Replaced.keyed (h : Replaced o o' g₀ x y) (hinv : o.Inv) :
    ∀ key z, o'.sessions.lookup key = some z → ∃ g : Generation, g.key = key ∧ z.IsOf g := by
  intro key z hz
  rw [h.after] at hz
  split_ifs at hz with hk
  · exact ⟨g₀, hk.symm, h.isOf' z hz⟩
  · exact hinv.keyed key z hz

theorem Replaced.modify (o' : Orchestrator) {f : Session → Session} {x : Session}
    (hx : o.sessions.lookup g₀.key = some x) (hof : x.IsOf g₀) (hof' : (f x).IsOf g₀)
    (h : o'.sessions = o.sessions.modify g₀.key f) : Replaced o o' g₀ (some x) (some (f x)) where
  before := hx
  after key := by
    rw [h, Dict.lookup_modify]
    split_ifs with hk
    · rw [hk, hx, Option.map_some]
    · rfl
  isOf _ hx' := Option.some.inj hx' ▸ hof
  isOf' _ hy' := Option.some.inj hy' ▸ hof'

theorem Inv.update (h : o.Inv) (g₀ : Generation) (hother : ∀ g, g ≠ g₀ → o'.tally g = o.tally g)
    {t : Tally} (hthis : o'.tally g₀ = t) (hgood : t.Good) (hnext : o.nextId ≤ o'.nextId)
    (hold : g₀.id < o'.nextId)
    (hkeyed : ∀ key z, o'.sessions.lookup key = some z → ∃ g : Generation, g.key = key ∧ z.IsOf g)
    (hordered : ∀ l l' g, o'.log = l ++ .closeBackend g :: l' → .openBackend g ∈ l') : o'.Inv where
  good g := by
    by_cases hg : g = g₀
    · rwa [hg, hthis]
    · exact hother g hg ▸ h.good g
  fresh g hle :=
    (hother g fun hg => Nat.not_le_of_lt hold (hg ▸ hle)).trans (h.fresh g (hnext.trans hle))
  keyed := hkeyed
  ordered := hordered

theorem Inv.lt_nextId (h : o.Inv) {f : Tally → ℕ} (hf : f {} = 0) (hpos : 0 < f (o.tally g₀)) :
    g₀.id < o.nextId :=
  Nat.lt_of_not_le fun hle => absurd hf (h.fresh g₀ hle ▸ hpos.ne')

theorem Inv.isOf (h : o.Inv) {x : Session} (hx : o.sessions.lookup key = some x) :
    x.generation.key = key ∧ x.IsOf x.generation := by
  obtain ⟨g, rfl, hof⟩ := h.keyed key x hx
  obtain rfl := hof.1
  exact ⟨rfl, hof⟩

theorem Inv.of_holds (h : o.Inv) (hheld : o.holds g₀) :
    ∃ x, o.sessions.lookup g₀.key = some x ∧ x.IsOf g₀ := by
  obtain ⟨x, hx, hgen⟩ := (Option.any_eq_true _ _).mp hheld
  exact ⟨x, hx, of_decide_eq_true hgen ▸ (h.isOf hx).2⟩

/-! ## Steps -/

theorem Inv.claim (h : o.Inv) (key : BackendKey) : (o.claimBackendSession key).Inv := by
  unfold claimBackendSession
  split_ifs with hsome
  · exact h
  have hr : Replaced o { o with
      sessions := o.sessions.insert key ⟨⟨o.nextId, key⟩, none, true⟩
      builds := ⟨o.nextId, key⟩ :: o.builds
      nextId := o.nextId + 1 } ⟨o.nextId, key⟩ none (some ⟨⟨o.nextId, key⟩, none, true⟩) :=
    ⟨Option.not_isSome_iff_eq_none.mp hsome, fun k => Dict.lookup_insert .., nofun, by
      rintro _ ⟨⟩
      exact ⟨rfl, nofun⟩⟩
  have hfresh := h.fresh ⟨o.nextId, key⟩ le_rfl
  refine h.update ⟨o.nextId, key⟩ (t := { builds := 1, held := true, building := true })
    (fun g hne => ?_) ?_ ⟨rfl, Nat.le_refl 1, nofun, fun _ => rfl, rfl⟩ (Nat.le_succ _) (Nat.lt_succ_self _)
    (hr.keyed h) h.ordered
  · simp [tally, hr.seat hne, hne.symm]
  · simp only [tally, Tally.mk.injEq] at hfresh ⊢
    simp [hfresh, hr.after, seat]

theorem Inv.finish (h : o.Inv) (hg : g₀ ∈ o.builds) : (o.finishBackendSession g₀).Inv := by
  have hpos : 0 < (o.tally g₀).builds := List.count_pos_iff.mpr hg
  have hold := h.lt_nextId rfl hpos
  obtain ⟨hrows, hsingle, hleft, hbuilding, hfinished⟩ := h.good g₀
  unfold finishBackendSession
  dsimp only
  split_ifs with hheld
  · obtain ⟨x, hx, hof⟩ := h.of_holds hheld
    have hr := Replaced.modify { o with
        sessions := o.sessions.modify g₀.key fun x => { x with building := false }
        builds := o.builds.erase g₀
        pending := g₀ :: o.pending
        finished := g₀ :: o.finished } (f := fun x => { x with building := false }) hx hof hof rfl
    refine h.update g₀ (t := { o.tally g₀ with
        builds := (o.tally g₀).builds - 1
        pending := (o.tally g₀).pending + 1
        finished := (o.tally g₀).finished + 1
        building := false }) (fun g hne => ?_) ?_ ⟨hrows, ?_, hleft, nofun, ?_⟩ le_rfl hold
      (hr.keyed h) h.ordered
    · simp [tally, hr.seat hne, hne.symm, List.count_erase_of_ne hne]
    · simp [tally, hr.after, hx, seat_of_isOf hof, seat_of_isOf (hr.isOf' _ rfl)]
    · dsimp only
      omega
    · dsimp only
      omega
  · refine h.update g₀ (t := { o.tally g₀ with builds := (o.tally g₀).builds - 1 }) (fun g hne => ?_)
      ?_ ⟨hrows, ?_, hleft, hbuilding, hfinished⟩ le_rfl hold h.keyed h.ordered
    · simp [tally, List.count_erase_of_ne hne]
    · simp [tally]
    · dsimp only
      omega

theorem Inv.persist (h : o.Inv) (hg : g₀ ∈ o.pending) : (o.openBackend g₀).Inv := by
  have hpos : 0 < (o.tally g₀).pending := List.count_pos_iff.mpr hg
  obtain ⟨hrows, hsingle, hleft, hbuilding, hfinished⟩ := h.good g₀
  refine h.update g₀ (t := { o.tally g₀ with
      pending := (o.tally g₀).pending - 1
      opened := (o.tally g₀).opened + 1
      opens := (o.tally g₀).opens + 1 }) (fun g hne => ?_) ?_ ⟨?_, ?_, hleft, fun hb => ?_, ?_⟩
    le_rfl (h.lt_nextId rfl hpos) h.keyed fun l l' g hl => ?_
  · simp [tally, openBackend, hne.symm, List.count_erase_of_ne hne]
  · simp [tally, openBackend]
  · dsimp only
    omega
  · dsimp only
    omega
  · have := hbuilding hb
    omega
  · dsimp only
    omega
  · cases l with
    | nil => cases hl
    | cons m l => exact h.ordered l l' g (List.cons.inj hl).2

theorem Inv.attach (h : o.Inv) (hg : g₀ ∈ o.opened) : (o.attach g₀).Inv := by
  have hpos : 0 < (o.tally g₀).opened := List.count_pos_iff.mpr hg
  have hold := h.lt_nextId rfl hpos
  obtain ⟨hrows, hsingle, hleft, hbuilding, hfinished⟩ := h.good g₀
  unfold Orchestrator.attach
  dsimp only
  split_ifs with hheld
  · obtain ⟨x, hx, hof⟩ := h.of_holds hheld
    have hr := Replaced.modify { o with
        sessions := o.sessions.modify g₀.key fun x => { x with historyId := some g₀ }
        opened := o.opened.erase g₀ } (f := fun x => { x with historyId := some g₀ }) hx hof
      ⟨hof.1, fun _ hrow => (Option.some.inj hrow).symm⟩ rfl
    refine h.update g₀ (t := { o.tally g₀ with opened := (o.tally g₀).opened - 1, attached := 1 })
      (fun g hne => ?_) ?_ ⟨?_, hsingle, hleft, hbuilding, hfinished⟩ le_rfl hold (hr.keyed h) h.ordered
    · simp [tally, hr.seat hne, List.count_erase_of_ne hne]
    · simp [tally, hr.after, hx, seat_of_isOf hof, seat_of_isOf (hr.isOf' _ rfl)]
    · dsimp only
      omega
  · refine h.update g₀ (t := { o.tally g₀ with
        opened := (o.tally g₀).opened - 1
        closing := (o.tally g₀).closing + 1 }) (fun g hne => ?_) ?_
      ⟨?_, hsingle, fun _ => Bool.eq_false_iff.mpr hheld, hbuilding, hfinished⟩ le_rfl hold
      h.keyed h.ordered
    · simp [tally, hne.symm, List.count_erase_of_ne hne]
    · simp [tally]
    · dsimp only
      omega

theorem Inv.erase (h : o.Inv) {x : Session} (hx : o.sessions.lookup key = some x) :
    Inv { o with sessions := o.sessions.erase key, closing := x.historyId.toList ++ o.closing } := by
  obtain ⟨rfl, hof⟩ := h.isOf hx
  have hr : Replaced o { o with
      sessions := o.sessions.erase x.generation.key
      closing := x.historyId.toList ++ o.closing } x.generation (some x) none :=
    ⟨hx, fun k => Dict.lookup_erase .., fun _ hx' => Option.some.inj hx' ▸ hof, nofun⟩
  have hcount : x.historyId.toList.count x.generation = (o.tally x.generation).attached := by
    cases hid : x.historyId with
    | none => simp [tally, hx, seat, hid]
    | some row => simp [tally, hx, seat, hid, hof.2 row hid]
  have hheld : 0 < (o.tally x.generation).held.toNat := by simp [tally, hx, seat]
  obtain ⟨hrows, hsingle, _, _, hfinished⟩ := h.good x.generation
  refine h.update x.generation (t := { o.tally x.generation with
      toSeat := {}
      closing := (o.tally x.generation).attached + (o.tally x.generation).closing }) (fun g hne => ?_) ?_
    ⟨?_, hsingle, fun _ => rfl, nofun, hfinished⟩ le_rfl
    (h.lt_nextId (f := fun t => t.held.toNat) rfl hheld) (hr.keyed h) h.ordered
  · have hrow : g ∉ x.historyId := fun hrow => hne (hof.2 g hrow)
    simp [tally, hr.seat hne, List.count_eq_zero.mpr (Option.mem_toList.not.mpr hrow)]
  · simp [tally, hr.after, List.count_append, hcount, seat]
  · dsimp only
    omega

theorem Inv.remove (h : o.Inv) (key : BackendKey) : (o.remove key).Inv := by
  unfold Orchestrator.remove
  split
  · rename_i x hx
    exact h.erase hx
  · exact h

theorem Inv.foldl_remove (h : o.Inv) (keys : List BackendKey) :
    (keys.foldl Orchestrator.remove o).Inv := by
  induction keys generalizing o with
  | nil => exact h
  | cons key keys ih => exact ih (h.remove key)

theorem Inv.cancelBuild (h : o.Inv) (key : BackendKey) : (o.cancelBackendBuild key).Inv := by
  unfold cancelBackendBuild
  split_ifs with hb
  · obtain ⟨x, hx, hbuild⟩ := (Option.any_eq_true _ _).mp hb
    obtain ⟨rfl, hof⟩ := h.isOf hx
    obtain ⟨hrows, _, _, hbuilding, _⟩ := h.good x.generation
    have hseat : (o.tally x.generation).toSeat = ⟨x.historyId.isSome.toNat, true, x.building⟩ := by
      rw [← seat_of_isOf hof, ← hx]
      rfl
    have hnone : x.historyId = none := by
      simp only [hseat] at hrows hbuilding
      have := hbuilding hbuild
      cases hid : x.historyId with
      | none => rfl
      | some row =>
        rw [hid, Option.isSome_some, Bool.toNat_true] at hrows
        omega
    have herase := h.erase hx
    rwa [hnone, Option.toList_none, List.nil_append] at herase
  · exact h

theorem Inv.close (h : o.Inv) (hg : g₀ ∈ o.closing) : (o.closeBackend g₀).Inv := by
  have hpos : 0 < (o.tally g₀).closing := List.count_pos_iff.mpr hg
  obtain ⟨hrows, hsingle, hleft, hbuilding, hfinished⟩ := h.good g₀
  refine h.update g₀ (t := { o.tally g₀ with
      closing := (o.tally g₀).closing - 1
      closes := (o.tally g₀).closes + 1 }) (fun g hne => ?_) ?_
    ⟨?_, hsingle, fun _ => hleft (by omega), hbuilding, hfinished⟩ le_rfl
    (h.lt_nextId rfl hpos) h.keyed fun l l' g hl => ?_
  · simp [tally, closeBackend, hne.symm, List.count_erase_of_ne hne]
  · simp [tally, closeBackend]
  · dsimp only
    omega
  · cases l with
    | nil =>
      obtain ⟨heq, rfl⟩ := List.cons.inj hl
      obtain rfl := Mutation.closeBackend.inj heq
      have hopens : 0 < (o.tally g₀).opens := by omega
      exact List.count_pos_iff.mp hopens
    | cons m l => exact h.ordered l l' g (List.cons.inj hl).2

theorem Inv.new : Inv {} where
  good _ := ⟨rfl, Nat.zero_le _, fun _ => rfl, nofun, rfl⟩
  fresh _ _ := rfl
  keyed _ _ := nofun
  ordered l _ _ hl := absurd hl (by cases l <;> nofun)

theorem Inv.step {a : Action} (h : o.Inv) (hs : o.step a = some o') : o'.Inv := by
  cases a with
  | claim key => exact Option.some.inj hs ▸ h.claim key
  | finish g =>
    obtain ⟨hg, ⟨⟩⟩ := Option.ite_none_right_eq_some.mp hs
    exact h.finish hg
  | persist g =>
    obtain ⟨hg, ⟨⟩⟩ := Option.ite_none_right_eq_some.mp hs
    exact h.persist hg
  | attach g =>
    obtain ⟨hg, ⟨⟩⟩ := Option.ite_none_right_eq_some.mp hs
    exact h.attach hg
  | cancel key g =>
    cases hs
    unfold cancelBackendSession
    split_ifs
    · exact h.remove key
    · exact h
  | cancelBuild key => exact Option.some.inj hs ▸ h.cancelBuild key
  | takeDue idle => exact Option.some.inj hs ▸ h.foldl_remove _
  | forget service r ports => exact Option.some.inj hs ▸ h.foldl_remove _
  | close g =>
    obtain ⟨hg, ⟨⟩⟩ := Option.ite_none_right_eq_some.mp hs
    exact h.close hg

/-! ## Every row is closed once -/

/-- The row of a generation was opened once. It is closed once, after it was opened and after its session
has left the map; until then the session is there, or a call that closes it is due. -/
structure ClosedOnce (o : Orchestrator) (g : Generation) : Prop where
  opens : o.log.count (.openBackend g) = 1
  closes : o.log.count (.closeBackend g) ≤ 1
  ordered : ∀ l l', o.log = l ++ .closeBackend g :: l' → .openBackend g ∈ l'
  left : .closeBackend g ∈ o.log → o.holds g = false
  closed : o.holds g = false → g ∉ o.opened → g ∉ o.closing → .closeBackend g ∈ o.log

/-- **The history of a backend session is closed exactly once.** A generation that was finished has a
row, or `persist_backend_session` is about to open it, and the row is opened and closed once. -/
theorem backend_closed_once (h : Reach step anyStep {} o) {g : Generation} (hg : g ∈ o.finished) :
    g ∈ o.pending ∨ o.ClosedOnce g := by
  have hinv : o.Inv := h.invariant Inv .new fun _ _ _ hinv _ hs => hinv.step hs
  obtain ⟨hrows, hsingle, hleft, _, hfinished⟩ := hinv.good g
  have hpos : 0 < (o.tally g).finished := List.count_pos_iff.mpr hg
  rcases Nat.eq_zero_or_pos (o.tally g).pending with hzero | hpending
  · have hopens : (o.tally g).opens = 1 := by omega
    have hcloses : (o.tally g).closes ≤ 1 := by omega
    refine .inr ⟨hopens, hcloses, fun l l' => hinv.ordered l l' g, fun hmem => hleft ?_,
      fun hheld hopened hclosing => ?_⟩
    · exact Nat.add_pos_right _ (List.count_pos_iff.mpr hmem)
    · have hattached : (o.tally g).attached = 0 := by
        refine congrArg Bool.toNat (Bool.eq_false_iff.mpr fun hattached => ?_)
        obtain ⟨x, hx, hid⟩ := (Option.any_eq_true _ _).mp hattached
        have hgen := (hinv.isOf hx).2.2 g (of_decide_eq_true hid)
        simp [holds, hx, hgen] at hheld
      have hopened : (o.tally g).opened = 0 := List.count_eq_zero.mpr hopened
      have hclosing : (o.tally g).closing = 0 := List.count_eq_zero.mpr hclosing
      have hclose : 0 < (o.tally g).closes := by omega
      exact List.count_pos_iff.mp hclose
  · exact .inl (List.count_pos_iff.mp hpending)

/-- A session is removed before its row is attached, and the next one of its port is reaped. -/
theorem backend_closed_once_shop :
    let key : BackendKey := ⟨"api", ⟨.v4 0, none⟩, 80⟩
    let as : List Action := [.claim key, .finish ⟨0, key⟩, .persist ⟨0, key⟩,
      .forget "api" ⟨.v4 0, none⟩ [80], .claim key, .attach ⟨0, key⟩, .close ⟨0, key⟩,
      .finish ⟨1, key⟩, .persist ⟨1, key⟩, .attach ⟨1, key⟩, .takeDue [key], .close ⟨1, key⟩]
    ∃ o, run step {} as = some o ∧ o.finished = [⟨1, key⟩, ⟨0, key⟩] ∧ ∀ g ∈ o.finished, o.ClosedOnce g := by
  intro key as
  obtain ⟨o, ho, hpending, hfinished⟩ : ∃ o, run step {} as = some o ∧ o.pending = [] ∧
      o.finished = [⟨1, key⟩, ⟨0, key⟩] := by decide +kernel
  refine ⟨o, ho, hfinished, fun g hg => (backend_closed_once (reach_of_run ho) hg).resolve_left ?_⟩
  rw [hpending]
  exact List.not_mem_nil

end Orchestrator

end Nullnet.Server.BackendHistory
