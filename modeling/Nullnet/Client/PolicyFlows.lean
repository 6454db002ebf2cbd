import Nullnet.Client.PolicyTag
import Nullnet.Ebpf.Firewall

/-! # TCP connections and generations

A TCP packet that opens a connection enters the generation of its rule under the key of the connection;
every other packet passes only while its own rule has that generation (`flow`). The table of connections
is shared by the programs of both directions, loses entries under load, and outlives the rules.
The log has the checks of connections, the last one first. -/

namespace Nullnet.Client.Policy

open Nullnet.Server (Ipv4Addr)
open Nullnet.Ebpf.Policy
open Nullnet.Lib

/-! ## Checks -/

/-- A TCP packet that was checked under a rule. -/
structure Check where
  key : FlowKey
  isSyn : Bool
  generation : BitVec 64
  /-- The check let it pass. -/
  passed : Bool
  /-- It was sent on. -/
  forwarded : Bool

/-- The check of a packet, if a rule was found for it and it is a TCP packet. -/
def checkOf (k : Helpers) (flows : Dict FlowKey (BitVec 64)) (frame : Bytes) (found : Option Match)
    (interface : Match → BitVec 32) (incoming : Bool) (sent : Option Redirect) : Option Check :=
  found.bind fun x =>
    if x.proto ≠ 6 then none
    else (segment frame x.len).map fun t =>
      { key := flowKey x.rule (interface x) t incoming
        isSyn := t.isSyn
        generation := x.rule.generation
        passed := (flow k flows x.rule (interface x) frame x.len x.proto incoming).isSome
        forwarded := sent.isSome }

def checkOutgoing (k : Helpers) (m : Maps) (skb : Skb) : Option Check :=
  checkOf k m.flows skb.frame (matchOutgoing k m skb) (fun _ => skb.ifindex) false (outgoing k m skb).1

def checkIncoming (k : Helpers) (m : Maps) (skb : Skb) : Option Check :=
  checkOf k m.flows skb.frame (matchIncoming k m skb) (·.rule.output) true (incoming k m skb).1

structure Watch where
  maps : Maps := {}
  log : List Check := []

inductive Step
  | outgoing (k : Helpers) (skb : Skb)
  | incoming (k : Helpers) (skb : Skb)
  | rules (outgoing : Dict OutKey Ebpf.Policy.Rule) (incoming : Dict Ipv4Addr Ebpf.Policy.Rule) (deadline : ℕ)
  | evict (lost : List FlowKey)

def step (s : Watch) : Step → Option Watch
  | .outgoing k skb =>
    some ⟨{ s.maps with flows := (outgoing k s.maps skb).2 },
      (checkOutgoing k s.maps skb).toList ++ s.log⟩
  | .incoming k skb =>
    some ⟨{ s.maps with flows := (incoming k s.maps skb).2 },
      (checkIncoming k s.maps skb).toList ++ s.log⟩
  | .rules outgoing incoming deadline =>
    some { s with maps := { s.maps with outgoing, incoming, deadline } }
  | .evict lost =>
    some { s with maps := { s.maps with flows := s.maps.flows.retain fun key _ => !lost.contains key } }

/-! ## Connections that were opened -/

/-- A packet opened the connection under the generation, and none did under another one since. -/
def Opened (log : List Check) (key : FlowKey) (generation : BitVec 64) : Prop :=
  ∃ between c before, log = between ++ c :: before ∧ c.isSyn = true ∧ c.passed = true ∧ c.key = key ∧
    c.generation = generation ∧
    ∀ d ∈ between, d.isSyn = true → d.passed = true → d.key = key → d.generation = generation

variable {log : List Check} {flows : Dict FlowKey (BitVec 64)} {k : Helpers} {m : Maps} {skb : Skb}
  {x : Match} {c : Check} {t : Segment} {s : Watch}

/-- Another check, unless it opens the connection under another generation. -/
theorem Opened.cons {key : FlowKey} {g : BitVec 64} (h : Opened log key g)
    (hc : c.isSyn = true → c.passed = true → c.key = key → c.generation = g) :
    Opened (c :: log) key g := by
  obtain ⟨between, d, before, rfl, hsyn, hpassed, hkey, hgen, hall⟩ := h
  exact ⟨c :: between, d, before, rfl, hsyn, hpassed, hkey, hgen, List.forall_mem_cons.mpr ⟨hc, hall⟩⟩

theorem opened_self (hsyn : c.isSyn = true) (hpassed : c.passed = true) :
    Opened (c :: log) c.key c.generation :=
  ⟨[], c, log, rfl, hsyn, hpassed, rfl, rfl, fun _ hd => absurd hd List.not_mem_nil⟩

/-- The table of connections says under which generation they were opened, and what was sent on
belongs to such a connection. -/
structure Sound (flows : Dict FlowKey (BitVec 64)) (log : List Check) : Prop where
  table : ∀ key g, flows.lookup key = some g → Opened log key g
  log : ∀ later c earlier, log = later ++ c :: earlier → c.forwarded = true → c.isSyn = false →
    Opened earlier c.key c.generation

/-- What a packet does to the table and to the log. -/
structure Handled (flows flows' : Dict FlowKey (BitVec 64)) (check : Option Check) : Prop where
  unchecked : check = none → flows' = flows
  opens : ∀ c ∈ check, c.isSyn = true → c.passed = true → flows' = flows.insert c.key c.generation
  fails : ∀ c ∈ check, c.passed = false → flows' = flows ∧ c.forwarded = false
  follows : ∀ c ∈ check, c.isSyn = false → c.passed = true →
    flows' = flows ∧ flows.lookup c.key = some c.generation

theorem Sound.handled {flows' : Dict FlowKey (BitVec 64)}
    (h : Sound flows log) {check : Option Check} (hh : Handled flows flows' check) :
    Sound flows' (check.toList ++ log) := by
  cases check with
  | none => rw [hh.unchecked rfl]; exact h
  | some c =>
    have hlast : c.forwarded = true → c.isSyn = false → Opened log c.key c.generation := by
      intro hfwd hsyn
      cases hp : c.passed with
      | false => exact absurd hfwd (by rw [(hh.fails c rfl hp).2]; decide)
      | true => exact h.table _ _ (hh.follows c rfl hsyn hp).2
    refine ⟨fun key g hlookup => ?_, fun later d earlier hlog hfwd hsyn => ?_⟩
    · cases hp : c.passed with
      | false =>
        rw [(hh.fails c rfl hp).1] at hlookup
        refine (h.table key g hlookup).cons fun _ hpassed => ?_
        cases hp.symm.trans hpassed
      | true =>
        cases hs : c.isSyn with
        | false =>
          rw [(hh.follows c rfl hs hp).1] at hlookup
          refine (h.table key g hlookup).cons fun hsyn => ?_
          cases hs.symm.trans hsyn
        | true =>
          rw [hh.opens c rfl hs hp, Dict.lookup_insert] at hlookup
          split_ifs at hlookup with hkey
          · cases hlookup
            exact hkey ▸ opened_self hs hp
          · exact (h.table key g hlookup).cons fun _ _ hk => absurd hk.symm hkey
    · cases later with
      | nil =>
        cases hlog
        exact hlast hfwd hsyn
      | cons _ later => exact h.log later d earlier (List.cons.inj hlog).2 hfwd hsyn

/-- What `flow` makes of a TCP packet: it opens the connection, finds it open, or fails. -/
theorem flow_tcp {rule : Ebpf.Policy.Rule} {interface : BitVec 32}
    {frame : Bytes} {len : ℕ} {dir : Bool} (ht : segment frame len = some t) :
    t.isSyn = true ∧ flow k flows rule interface frame len 6 dir =
        some (flows.insert (flowKey rule interface t dir) rule.generation) ∨
      t.isSyn = false ∧ flow k flows rule interface frame len 6 dir = some flows ∧
        flows.lookup (flowKey rule interface t dir) = some rule.generation ∨
      flow k flows rule interface frame len 6 dir = none := by
  have heq : flow k flows rule interface frame len 6 dir =
      if t.isSyn then
        if k.insertFlow then some (flows.insert (flowKey rule interface t dir) rule.generation) else none
      else if flows.lookup (flowKey rule interface t dir) = some rule.generation then some flows
      else none := by
    unfold flow
    rw [ht]
    rfl
  rw [heq]
  split_ifs with hsyn hins hlookup
  · exact .inl ⟨hsyn, rfl⟩
  · exact .inr (.inr rfl)
  · exact .inr (.inl ⟨Bool.eq_false_of_not_eq_true hsyn, rfl, hlookup⟩)
  · exact .inr (.inr rfl)

theorem handled_of_none : Handled flows flows none :=
  ⟨fun _ => rfl, nofun, nofun, nofun⟩

theorem handled_checkAndSend (k : Helpers) (flows : Dict FlowKey (BitVec 64)) (frame : Bytes)
    (found : Option Match) (interface : Match → BitVec 32) (dir : Bool)
    (send : Match → Option Redirect) :
    Handled flows (checkAndSend k flows frame found interface dir send).2
      (checkOf k flows frame found interface dir
        (checkAndSend k flows frame found interface dir send).1) := by
  cases found with
  | none => exact handled_of_none
  | some x =>
    obtain ⟨rule, len, proto⟩ := x
    generalize hi : interface ⟨rule, len, proto⟩ = i
    unfold checkOf checkAndSend
    dsimp only [Option.bind_some]
    rw [hi]
    by_cases hproto : proto = 6
    · subst hproto
      cases ht : segment frame len with
      | none =>
        have hnone : flow k flows rule i frame len 6 dir = none := by unfold flow; rw [ht]; rfl
        rw [hnone]
        exact handled_of_none
      | some t =>
        rcases flow_tcp ht with ⟨hsyn, hflow⟩ | ⟨hsyn, hflow, hlookup⟩ | hflow
        · rw [hflow, Option.map_some, hsyn]
          refine ⟨nofun, ?_, ?_, ?_⟩
          · rintro c ⟨⟩ - -; rfl
          · rintro c ⟨⟩ ⟨⟩
          · rintro c ⟨⟩ ⟨⟩
        · rw [hflow, Option.map_some, hsyn]
          refine ⟨nofun, ?_, ?_, ?_⟩
          · rintro c ⟨⟩ ⟨⟩
          · rintro c ⟨⟩ ⟨⟩
          · rintro c ⟨⟩ - -; exact ⟨rfl, hlookup⟩
        · rw [hflow, Option.map_some]
          refine ⟨nofun, ?_, ?_, ?_⟩
          · rintro c ⟨⟩ - ⟨⟩
          · rintro c ⟨⟩ -; exact ⟨rfl, rfl⟩
          · rintro c ⟨⟩ - ⟨⟩
    · have hsame : flow k flows rule i frame len proto dir = some flows := if_pos hproto
      rw [if_pos hproto, hsame]
      exact handled_of_none

/-! ## Runs -/

theorem Sound.step {s' : Watch} (h : Sound s.maps.flows s.log) {a : Step} (hs : step s a = some s') :
    Sound s'.maps.flows s'.log := by
  cases a with
  | outgoing | incoming => cases hs; exact h.handled (handled_checkAndSend ..)
  | rules outgoing incoming deadline => cases hs; exact h
  | evict lost =>
    cases hs
    refine ⟨fun key g hlookup => ?_, h.log⟩
    rw [Dict.lookup_retain, Option.filter_eq_some_iff] at hlookup
    exact h.table key g hlookup.1

theorem sound_of_reach (h : Reach step anyStep {} s) : Sound s.maps.flows s.log := by
  refine h.invariant (fun s => Sound s.maps.flows s.log)
    ⟨fun key g hlookup => ?_, fun later c earlier hlog => ?_⟩ fun s a s' hs _ hst => hs.step hst
  · cases hlookup
  · cases later <;> cases hlog

/-! ## The two directions of a connection -/

/-- The maps have the entries of an edge; it may have been enabled since. -/
structure Installed (m : Maps) (p : Placed) : Prop where
  outgoing : ∃ enabled, m.outgoing.lookup p.key = some { p.rule with enabled }
  incoming : m.incoming.lookup p.localIp = some p.rule

theorem rule_of_matchOutgoing {peer : Ipv4Addr}
    (h : matchOutgoing k m skb = some x) (hpeer : skb.frame.be32 30 = some peer) :
    m.outgoing.lookup ⟨skb.ifindex, peer⟩ = some x.rule := by
  simp only [matchOutgoing, Option.bind_eq_bind, Option.bind_eq_some_iff, hpeer] at h
  obtain ⟨-, -, _, -, _, -, -, -, _, hp, rule, hrule, -, -, hx⟩ := h
  cases hp
  cases hx
  exact hrule

theorem rule_of_matchIncoming {localIp : Ipv4Addr} (h : matchIncoming k m skb = some x)
    (hlocal : skb.frame.be32 30 = some localIp) : m.incoming.lookup localIp = some x.rule := by
  simp only [matchIncoming, Option.bind_eq_bind, Option.bind_eq_some_iff, hlocal] at h
  obtain ⟨-, -, _, -, _, hl, rule, hrule, _, -, -, -, -, -, hx⟩ := h
  cases hl
  cases hx
  exact hrule

/-- A packet of a connection that leaves the application of an edge, and one that comes back, have the
same key. -/
theorem flowKey_symm {p : Placed} (h : Installed m p) (hremote : p.localTransport = false)
    {k' : Helpers} {skb' : Skb} {y : Match} (hx : matchOutgoing k m skb = some x)
    (hif : skb.ifindex = p.output.outer) (hdst : skb.frame.be32 30 = some p.peerIp)
    (hy : matchIncoming k' m skb' = some y) (hdst' : skb'.frame.be32 30 = some p.localIp)
    {t' : Segment} (hback : t'.source = t.dest ∧ t'.dest = t.source) :
    flowKey x.rule skb.ifindex t false = flowKey y.rule y.rule.output t' true := by
  obtain ⟨enabled, hout⟩ := h.outgoing
  have hxrule : some x.rule = some { p.rule with enabled } := by
    rw [← rule_of_matchOutgoing hx hdst, hif]
    exact hout
  have hyrule : some y.rule = some p.rule := by
    rw [← rule_of_matchIncoming hy hdst']
    exact h.incoming
  rw [Option.some.inj hxrule, Option.some.inj hyrule, hif]
  simp only [flowKey, Placed.rule, hremote, hback.1, hback.2, Bool.false_eq_true, if_false, if_true]

/-- **TCP connections stay in their generation**: a TCP packet that does not open a connection is sent
on under a generation only if its connection was opened under it and under no other one since; and on
one host both directions of a connection of an edge to another host have one key. -/
theorem connections_keep_generation :
    (∀ s, Reach step anyStep {} s → ∀ later c earlier, s.log = later ++ c :: earlier →
      c.forwarded = true → c.isSyn = false → Opened earlier c.key c.generation) ∧
    ∀ m p, Installed m p → p.localTransport = false → ∀ k k' skb skb' x y,
      matchOutgoing k m skb = some x → skb.ifindex = p.output.outer →
      skb.frame.be32 30 = some p.peerIp → matchIncoming k' m skb' = some y →
      skb'.frame.be32 30 = some p.localIp → ∀ t t', segment skb.frame x.len = some t →
      segment skb'.frame y.len = some t' → t'.source = t.dest → t'.dest = t.source →
      flowKey x.rule skb.ifindex t false = flowKey y.rule y.rule.output t' true := by
  refine ⟨fun s h => (sound_of_reach h).log, ?_⟩
  intro m p h hremote k k' skb skb' x y hx hif hdst hy hdst' t t' _ _ hsrc hdest
  exact flowKey_symm h hremote hx hif hdst hy hdst' ⟨hsrc, hdest⟩

/-- A connection that the application opens: the packet that opens it, and the answer of the other
host. -/
theorem connections_keep_generation_answer : ∃ s c earlier, Reach step anyStep {} s ∧
    s.log = [] ++ c :: earlier ∧ c.forwarded = true ∧ c.isSyn = false ∧
      Opened earlier c.key c.generation := by
  let p := clientEnd 1
  let syn : Skb :=
    { frame := Ebpf.ipv4Frame 5 40 0 6 APP_IP p.peerIp
        ([3, 232, 0, 80] ++ List.replicate 9 0 ++ [2] ++ List.replicate 6 0)
      ifindex := 7 }
  let ack : Skb :=
    { frame := Ebpf.ipv4Frame 5 40 0 6 p.peerIp p.localIp
        ([0, 80, 3, 232] ++ List.replicate 9 0 ++ [16] ++ List.replicate 6 0)
      ifindex := 9, mark := p.rule.mark, tunnel := some ⟨101, 64, 2#32, 1#32⟩
      option := some (optionOf 1) }
  obtain ⟨s, hs, c, hc, hfwd, hack⟩ : ∃ s, Reach step anyStep {} s ∧
      ∃ c ∈ s.log.head?, c.forwarded = true ∧ c.isSyn = false :=
    exists_reach [.rules ((∅ : Dict _ _).insert p.key { p.rule with enabled := 1 })
      ((∅ : Dict _ _).insert p.localIp p.rule) 1, .outgoing helpers syn, .incoming helpers ack]
      (by decide +kernel)
  obtain ⟨earlier, hcons⟩ := List.head?_eq_some_iff.mp hc
  exact ⟨s, c, earlier, hs, hcons, hfwd, hack,
    connections_keep_generation.1 s hs [] c earlier hcons hfwd hack⟩

end Nullnet.Client.Policy
