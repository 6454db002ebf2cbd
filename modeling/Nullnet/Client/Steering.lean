import Nullnet.Client.Commands
import Nullnet.Lib.Hoare

/-! # Steering, by the text of the rule table

`install_steer` and `remove_steer` at the level of the commands. The rules of an edge are not
remembered: they are found again in the words that `ip -N rule show` prints, by source, table,
priority and protocol, in the layout of this version and in an older one. A deletion names
attributes, and the kernel deletes the first rule that has them.

The commands on the rules of the kernel leave this out. `ownsSteer_eq` says that they find the same
rules. -/

namespace Nullnet.Client.Steering

open Nullnet.Lib
open Nullnet.Server (Ipv4Addr)

/-! ## The rule table and its text -/

inductive Word
  | text (s : String)
  | number (n : ℕ)
  | address (ip : Ipv4Addr)
  deriving DecidableEq

inductive Source
  | all
  | host (ip : Ipv4Addr)
  | network (cidr : String)
  deriving DecidableEq

def Source.word : Source → Word
  | .all => .text "all"
  | .host ip => .address ip
  | .network cidr => .text cidr

structure IpRule where
  priority : ℕ
  source : Source
  destination : Option String := none
  /-- All other attributes, as words. -/
  selectors : List Word := []
  /-- The table to look up; a rule may do something else. -/
  table : Option ℕ := none
  protocol : Option ℕ := none
  deriving DecidableEq

/-- What `ip -N rule show` prints for a rule: its priority, and the words after the colon. -/
def IpRule.line (r : IpRule) : ℕ × List Word :=
  (r.priority, [.text "from", r.source.word] ++
    (r.destination.elim [] fun d => [.text "to", .text d]) ++ r.selectors ++
    (r.table.elim [] fun n => [.text "lookup", .number n]) ++
    (r.protocol.elim [] fun n => [.text "proto", .number n]))

/-- What is read from a line, and given to `ip rule del`. -/
structure SteerRule where
  priority : ℕ
  source : Ipv4Addr
  destination : Option Word
  table : Word
  protocol : Option Word
  deriving DecidableEq

/-- The word after the first occurrence of a key that has one. -/
def field (key : String) : List Word → Option Word
  | w :: v :: words => if w = .text key then some v else field key (v :: words)
  | _ => none

def parseSteerRule (line : ℕ × List Word) : Option SteerRule :=
  match field "from" line.2, field "lookup" line.2 with
  | some (.address source), some table =>
    some ⟨line.1, source, field "to" line.2, if table = .number 254 then .text "main" else table,
      field "proto" line.2⟩
  | _, _ => none

def parseSteerRules (out : List (ℕ × List Word)) : List SteerRule := out.filterMap parseSteerRule

/-! ## Ownership -/

def TABLE_OFFSET : ℕ := 10000

def STEER_PRIO_BASE : ℕ := 1000

def STEER_PROTOCOL : ℕ := 242

def tableFor (netId : ℕ) : ℕ := TABLE_OFFSET + netId

/-- The network of a rule that sends everything to its table, in one of the two layouts. -/
def steerId (rule : SteerRule) : Option ℕ :=
  match rule.table with
  | .number n =>
    if n < TABLE_OFFSET then none else
    let id := n - TABLE_OFFSET
    if id < MIN_NET_ID ∨ MAX_NET_ID < id ∨ rule.destination.isSome then none else
    let current :=
      rule.protocol = some (.number STEER_PROTOCOL) ∧ rule.priority = STEER_PRIO_BASE + 15
    let legacy :=
      rule.protocol.isNone ∧ rule.priority = 1000 + id * 16 + 15 ∧ rule.priority < 32766
    if current ∨ legacy then some id else none
  | _ => none

/-- Where a destination stands among the internal ranges. -/
def rangeIndex (destination : Option Word) : Option ℕ :=
  INTERNAL_RANGES.findIdx? fun range => destination = some (.text range)

/-- The rule keeps an internal destination in the main table. -/
def SteerRule.isBypass (rule : SteerRule) : Bool :=
  rule.table = .text "main" ∧ (rangeIndex rule.destination).isSome

/-- The test of `owned_steer_rules`; without an edge it is about the edges of all networks. -/
def isOwned (legacy : List (ℕ × Ipv4Addr)) (edge : Option (ℕ × Ipv4Addr)) (rule : SteerRule) :
    Bool :=
  if edge.any fun e => e.2 ≠ rule.source then false else
  if rule.protocol = some (.number STEER_PROTOCOL) then
    if rule.isBypass then
      (rangeIndex rule.destination).any fun i => rule.priority = STEER_PRIO_BASE + i
    else (steerId rule).any fun id => edge.all fun e => id = e.1
  else legacy.any fun l =>
    if l.2 ≠ rule.source ∨ edge.any fun e => l.1 ≠ e.1 then false else
    if rule.isBypass then
      (rangeIndex rule.destination).any fun i => rule.priority = 1000 + l.1 * 16 + i
    else steerId rule = some l.1

def ownedSteerRules (out : List (ℕ × List Word)) (edge : Option (ℕ × Ipv4Addr)) : List SteerRule :=
  let rules := parseSteerRules out
  let legacy := rules.filterMap fun r =>
    if r.protocol.isNone then (steerId r).map fun id => (id, r.source) else none
  rules.filter (isOwned legacy edge)

/-! ## Commands -/

/-- A translation of the sources of packets that leave by a device. -/
structure Snat where
  source : Ipv4Addr
  dev : String
  toSource : Ipv4Addr
  deriving DecidableEq

/-- What the commands change: policy rules, the default route of each table, and translations. -/
structure Tables where
  rules : List IpRule := []
  routes : Dict ℕ (Ipv4Addr × String) := ∅
  snats : List Snat := []

inductive SteerCall
  | showRules
  | addRule (rule : IpRule)
  | deleteRule (rule : SteerRule)
  | replaceRoute (table : ℕ) (gateway : Ipv4Addr) (dev : String)
  | flushTable (table : ℕ)
  | addSnat (snat : Snat)
  | deleteSnat (snat : Snat)
  | snatAbsent (snat : Snat)

@[reducible] def SteerReply : SteerCall → Type
  | .showRules => Option (List (ℕ × List Word))
  | _ => Bool

def tableNumber : Word → Option ℕ
  | .text name => if name = "main" then some 254 else none
  | .number n => some n
  | .address _ => none

/-- The rule has the attributes that a deletion names. -/
def IpRule.fits (r : IpRule) (d : SteerRule) : Bool :=
  r.priority = d.priority ∧ r.source = .host d.source ∧
    (d.destination.all fun w => r.destination.map Word.text = some w) ∧
    (tableNumber d.table).any (fun n => r.table = some n) ∧
    d.protocol.all fun w => r.protocol.map Word.number = some w

namespace Tables

def attempt (t t' : Tables) (o : Outcome) : Tables × Bool :=
  (if o.ok || o.partly then t' else t, o.ok)

/-- A rule is placed behind those of its priority. -/
def insertRule (t : Tables) (rule : IpRule) : Tables :=
  { t with rules := t.rules.takeWhile (fun r => r.priority ≤ rule.priority) ++
      rule :: t.rules.dropWhile fun r => r.priority ≤ rule.priority }

/-- Run a command. The kernel does not take a rule that it has. -/
def exec (t : Tables) : (c : SteerCall) → Outcome → Tables × SteerReply c
  | .showRules, o => (t, if o.ok then some (t.rules.map IpRule.line) else none)
  | .addRule rule, o => if rule ∈ t.rules then (t, false) else t.attempt (t.insertRule rule) o
  | .deleteRule d, o =>
    if t.rules.any (·.fits d) then t.attempt { t with rules := t.rules.eraseP (·.fits d) } o
    else (t, false)
  | .replaceRoute table gateway dev, o =>
    t.attempt { t with routes := t.routes.insert table (gateway, dev) } o
  | .flushTable table, o => t.attempt { t with routes := t.routes.erase table } o
  | .addSnat snat, o => t.attempt { t with snats := t.snats ++ [snat] } o
  | .deleteSnat snat, o =>
    if snat ∈ t.snats then t.attempt { t with snats := t.snats.erase snat } o else (t, false)
  | .snatAbsent snat, o => (t, o.ok && snat ∉ t.snats)

end Tables

/-! ## Edges -/

structure Edge where
  netId : ℕ
  brDev : String
  proxyGw : Ipv4Addr
  snatSrc : Ipv4Addr
  containerIp : Ipv4Addr

/-- An internal destination stays in the main table. -/
def bypassRule (containerIp : Ipv4Addr) (range : String) (i : ℕ) : IpRule :=
  { priority := STEER_PRIO_BASE + i, source := .host containerIp, destination := some range
    table := some 254, protocol := some STEER_PROTOCOL }

/-- Everything else goes to the table of the network. -/
def catchAllRule (containerIp : Ipv4Addr) (netId : ℕ) : IpRule :=
  { priority := STEER_PRIO_BASE + 15, source := .host containerIp, table := some (tableFor netId)
    protocol := some STEER_PROTOCOL }

namespace Edge

def rules (e : Edge) : List IpRule :=
  (INTERNAL_RANGES.zipIdx.map fun x => bypassRule e.containerIp x.1 x.2) ++
    [catchAllRule e.containerIp e.netId]

def snat (e : Edge) : Snat := ⟨e.containerIp, e.brDev, e.snatSrc⟩

end Edge

abbrev Steerer := Prog SteerCall SteerReply

abbrev command (c : SteerCall) : Steerer (SteerReply c) := Prog.perform c

/-- Run a command for each element of a list; have all succeeded? -/
def each {α : Type} (f : α → Steerer Bool) : List α → Steerer Bool
  | [] => return true
  | a :: as => do
    let ok ← f a
    let rest ← each f as
    return ok && rest

def deleteRule (rule : SteerRule) : Steerer Bool := command (.deleteRule rule)

def addRule (rule : IpRule) : Steerer Bool := command (.addRule rule)

/-- A failed deletion is harmless if the translation is absent. -/
def removeSnat (snat : Snat) : Steerer Bool := do
  if ← command (.deleteSnat snat) then return true
  command (.snatAbsent snat)

def removeSteer (e : Edge) : Steerer Bool := do
  match ← command .showRules with
  | none => return false
  | some out =>
    let ok₁ ← each deleteRule (ownedSteerRules out (some (e.netId, e.containerIp)))
    let ok₂ ← command (.flushTable (tableFor e.netId))
    let ok₃ ← removeSnat e.snat
    return ok₁ && ok₂ && ok₃

def installSteer (e : Edge) : Steerer Bool := do
  if !(← removeSteer e) then return false
  let ok₁ ← each addRule e.rules
  let ok₂ ← command (.replaceRoute (tableFor e.netId) e.proxyGw e.brDev)
  let ok₃ ← command (.addSnat e.snat)
  if !(ok₁ && ok₂ && ok₃) then
    let _ ← removeSteer e
    return false
  return true

inductive SteerOp
  | install
  | remove
  deriving DecidableEq

def SteerOp.prog : SteerOp → Edge → Steerer Bool
  | .install, e => installSteer e
  | .remove, e => removeSteer e

/-- All that `install_steer` creates for an edge is in place. -/
structure Tables.Installed (t : Tables) (e : Edge) : Prop where
  rules : ∀ r ∈ e.rules, r ∈ t.rules
  route : t.routes.lookup (tableFor e.netId) = some (e.proxyGw, e.brDev)
  snat : e.snat ∈ t.snats

/-! ## Reading the rules back -/

variable {key : String} {r : IpRule}

theorem field_cons_of_ne {w : Word} (h : w ≠ .text key) (words : List Word) :
    field key (w :: words) = field key words := by
  cases words with
  | nil => rfl
  | cons v words => exact if_neg h

theorem field_append {l : List Word} (h : .text key ∉ l) (words : List Word) :
    field key (l ++ words) = field key words := by
  induction l with
  | nil => rfl
  | cons w l ih =>
    rw [List.mem_cons, not_or] at h
    rw [List.cons_append, field_cons_of_ne (Ne.symm h.1), ih h.2]

/-- None of the other attributes is a key of the listing. -/
def IpRule.Plain (r : IpRule) : Prop :=
  ∀ key ∈ ["from", "to", "lookup", "proto"], .text key ∉ r.selectors

instance (r : IpRule) : Decidable r.Plain := inferInstanceAs (Decidable (∀ key ∈ _, _))

/-- The deletion of a rule for an internal destination. -/
def bypassDeletion (containerIp : Ipv4Addr) (range : String) (i : ℕ) : SteerRule :=
  ⟨STEER_PRIO_BASE + i, containerIp, some (.text range), .text "main",
    some (.number STEER_PROTOCOL)⟩

/-- A rule that has the attributes of a rule for an internal destination is read as one. -/
theorem parse_of_fits (hr : r.Plain) {ip : Ipv4Addr} {range : String} {i : ℕ}
    (hrange : range ∈ INTERNAL_RANGES) (h : r.fits (bypassDeletion ip range i)) :
    parseSteerRule r.line = some (bypassDeletion ip range i) := by
  obtain ⟨hprio, hsource, hdest, htable, hproto⟩ := of_decide_eq_true h
  obtain ⟨priority, source, destination, selectors, table, protocol⟩ := r
  simp only [bypassDeletion, tableNumber, Option.all_some, Option.any_some, if_true,
    decide_eq_true_eq, Option.map_eq_some_iff, Word.text.injEq, Word.number.injEq,
    exists_eq_right] at *
  subst hprio hsource hdest htable hproto
  have hskip : ∀ key ∈ ["lookup", "proto"],
      field key ([.text "from", .address ip, .text "to", .text range] ++
        (selectors ++ [.text "lookup", .number 254, .text "proto", .number STEER_PROTOCOL])) =
      field key [.text "lookup", .number 254, .text "proto", .number STEER_PROTOCOL] := by
    intro key hkey
    have hne : key ∉ ["from", "to"] ++ INTERNAL_RANGES := by
      revert key
      decide
    have hmem : key ∈ ["from", "to", "lookup", "proto"] := by grind
    rw [field_append (by grind), field_append (hr key hmem)]
  have hwords : (⟨STEER_PRIO_BASE + i, .host ip, some range, selectors, some 254,
      some STEER_PROTOCOL⟩ : IpRule).line.2 = [.text "from", .address ip, .text "to", .text range] ++
        (selectors ++ [.text "lookup", .number 254, .text "proto", .number STEER_PROTOCOL]) := by
    simp [IpRule.line, Source.word]
  unfold parseSteerRule
  rw [hwords, hskip "lookup" (by simp), hskip "proto" (by simp)]
  rfl

theorem rangeIndex_of_mem {x : String × ℕ} (hx : x ∈ INTERNAL_RANGES.zipIdx) :
    rangeIndex (some (.text x.1)) = some x.2 := by
  revert x
  decide

theorem mem_zipIdx_of_rangeIndex {range : String} {i : ℕ}
    (h : rangeIndex (some (.text range)) = some i) : (range, i) ∈ INTERNAL_RANGES.zipIdx := by
  obtain ⟨hlt, hi, -⟩ := List.findIdx?_eq_some_iff_getElem.mp h
  rw [List.mk_mem_zipIdx_iff_getElem?, List.getElem?_eq_getElem hlt]
  simpa using (of_decide_eq_true hi).symm

theorem isOwned_bypass (legacy : List (ℕ × Ipv4Addr)) (netId : ℕ) (ip source : Ipv4Addr)
    {x : String × ℕ} (hx : x ∈ INTERNAL_RANGES.zipIdx) :
    isOwned legacy (some (netId, ip)) (bypassDeletion source x.1 x.2) = decide (source = ip) := by
  by_cases h : source = ip
  · simp [isOwned, SteerRule.isBypass, bypassDeletion, rangeIndex_of_mem hx, h]
  · simp [isOwned, bypassDeletion, h, Ne.symm h]

theorem fits_bypass (ip : Ipv4Addr) (range : String) (i : ℕ) :
    (bypassRule ip range i).fits (bypassDeletion ip range i) := by
  simp [IpRule.fits, bypassDeletion, bypassRule, tableNumber]

theorem parse_catchAll (ip : Ipv4Addr) (netId : ℕ) : parseSteerRule (catchAllRule ip netId).line =
    some ⟨STEER_PRIO_BASE + 15, ip, none, .number (tableFor netId),
      some (.number STEER_PROTOCOL)⟩ := by
  simp [parseSteerRule, catchAllRule, IpRule.line, Source.word, field, tableFor, TABLE_OFFSET]
  omega

/-! ## The rules of the handlers

The model of the handlers has these rules as `Rule.bypass` and `Rule.catchAll`, and finds them by
`ownsSteer`. -/

def ofRule : Rule → Option IpRule
  | .bypass source range => (INTERNAL_RANGES.findIdx? (· = range)).map (bypassRule source range)
  | .catchAll source netId => some (catchAllRule source netId)
  | _ => none

/-- **A rule is found in the text just when the model of the handlers finds it.** -/
theorem ownsSteer_eq (legacy : List (ℕ × Ipv4Addr)) (netId : ℕ) (ip : Ipv4Addr) {rule : Rule}
    (h : ofRule rule = some r) :
    (parseSteerRule r.line).any (isOwned legacy (some (netId, ip))) = ownsSteer netId ip rule := by
  cases rule with
  | bypass source range =>
    obtain ⟨i, hi, rfl⟩ := Option.map_eq_some_iff.mp h
    have hx : (range, i) ∈ _ := mem_zipIdx_of_rangeIndex (by simpa [rangeIndex, eq_comm] using hi)
    have hrange := List.fst_mem_of_mem_zipIdx hx
    rw [parse_of_fits (fun _ _ => List.not_mem_nil) hrange (fits_bypass source range i),
      Option.any_some, isOwned_bypass legacy netId ip source hx]
    simp [ownsSteer, hrange]
  | catchAll source id =>
    cases h
    rw [parse_catchAll, Option.any_some]
    simp [isOwned, SteerRule.isBypass, steerId, ownsSteer, tableFor]
    grind
  | _ => cases h

theorem ownsSteer_eq_own : ∃ r, ofRule (.catchAll 5#32 107) = some r ∧
    (parseSteerRule r.line).any (isOwned [] (some (107, 5#32))) :=
  ⟨_, rfl, (ownsSteer_eq [] 107 5#32 (show ofRule (.catchAll 5#32 107) = _ from rfl)).trans (by decide)⟩

end Nullnet.Client.Steering
