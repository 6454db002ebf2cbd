import Nullnet.Ebpf.Firewall

/-! # The ports that the firewall reads

The firewall takes the ports of TCP and UDP from the four bytes behind an IPv4 header of 20 bytes
(`portsAt`). A header may be longer, and a fragment other than the first has no transport header at
all. So the bytes that are read are the ports of the packet (`ownPorts`) exactly for headers of 20
bytes in front of a transport header. -/

namespace Nullnet.Ebpf

open Nullnet.Lib

/-! ## What the header says -/

/-- The length of the header in words of four bytes, the fragment offset, and the length of the
packet. -/
structure Shape where
  ihl : ℕ
  offset : ℕ
  total : ℕ
  deriving DecidableEq

/-- The shape that the header of an IPv4 frame states. -/
def shape (frame : Bytes) : Option Shape := do
  let etherType ← frame.be16 12
  let first ← frame[14]?
  let total ← frame.be16 16
  let fragment ← frame.be16 20
  if etherType = 0x0800 ∧ first.toNat / 16 = 4 then
    return ⟨first.toNat % 16, fragment.toNat % 8192, total.toNat⟩
  else none

/-- The frame holds a packet of the shape; there may be padding behind it. -/
def WellFormed (frame : Bytes) (s : Shape) : Prop :=
  shape frame = some s ∧ 5 ≤ s.ihl ∧ 4 * s.ihl ≤ s.total ∧ 14 + s.total ≤ frame.length

instance (frame : Bytes) (s : Shape) : Decidable (WellFormed frame s) :=
  inferInstanceAs (Decidable (_ ∧ _))

/-- The ports in the transport header of the packet; only a first fragment has one. -/
def ownPorts (frame : Bytes) (s : Shape) : Option (UInt16 × UInt16) :=
  if s.offset = 0 ∧ 4 * s.ihl + 4 ≤ s.total then do
    let srcPort ← frame.be16 (14 + 4 * s.ihl)
    let dstPort ← frame.be16 (16 + 4 * s.ihl)
    return (srcPort, dstPort)
  else none

/-- A packet of TCP or UDP that is allowed was judged by its own ports, and a later fragment is
neither let through nor entered into the table of flows. -/
def JudgedByOwnPorts (fw : Firewall) (isEgress : Bool) (frame : Bytes) (s : Shape) : Prop :=
  ∀ p, headers frame = some (.tracked p) → p.proto = PROTO_TCP ∨ p.proto = PROTO_UDP →
    (fw.ctHit p = false → fw.baseAllow isEgress p = true →
      ownPorts frame s = some (p.srcPort, p.dstPort)) ∧
    (s.offset ≠ 0 → fw.classify isEgress frame = (.shot, fw))

/-- The shapes that headers can state. -/
def Shape.Possible (s : Shape) : Prop :=
  5 ≤ s.ihl ∧ s.ihl < 16 ∧ s.offset < 8192 ∧ 4 * s.ihl ≤ s.total ∧ s.total < 65536

/-- The packet has a header without options, is a first fragment, and has room for two ports. -/
def Shape.Plain (s : Shape) : Prop := s.ihl = 5 ∧ s.offset = 0 ∧ 24 ≤ s.total

/-! ## What is read -/

variable {frame : Bytes}

theorem ptrAt_eq_some {offset len : ℕ} {u : Unit} :
    ptrAt frame offset len = some u ↔ offset + len ≤ frame.length := by
  unfold ptrAt
  split_ifs with h
  · exact ⟨fun _ => h, fun _ => rfl⟩
  · refine ⟨fun hn => ?_, fun hl => absurd hl h⟩
    cases hn

theorem portsAt_eq_some {len : ℕ} {s d : UInt16} : portsAt frame len = some (s, d) ↔
      34 + len ≤ frame.length ∧ frame.be16 34 = some s ∧ frame.be16 36 = some d := by
  simp only [portsAt, Option.bind_eq_bind, Option.bind_eq_some_iff, ptrAt_eq_some, Option.pure_def,
    Option.some.injEq, Prod.mk.injEq]
  constructor
  · rintro ⟨-, hlen, s', hs, d', hd, rfl, rfl⟩
    exact ⟨hlen, hs, hd⟩
  · rintro ⟨hlen, hs, hd⟩
    exact ⟨(), hlen, s, hs, d, hd, rfl, rfl⟩

/-- The ports of a packet of TCP or UDP are read behind 20 bytes of header. -/
theorem ports_of_tracked {p : Packet} (h : headers frame = some (.tracked p))
    (hp : p.proto = PROTO_TCP ∨ p.proto = PROTO_UDP) :
    frame.be16 34 = some p.srcPort ∧ frame.be16 36 = some p.dstPort := by
  unfold headers at h
  simp only [Option.bind_eq_bind, Option.bind_eq_some_iff] at h
  obtain ⟨-, -, etherType, -, h⟩ := h
  split_ifs at h
  · cases h
  · cases h
  · simp only [Option.bind_eq_some_iff] at h
    obtain ⟨-, -, src, -, dst, -, proto, -, h⟩ := h
    split_ifs at h
    · simp only [Option.bind_eq_some_iff] at h
      obtain ⟨⟨s, d⟩, hports, hh⟩ := h
      cases hh
      exact (portsAt_eq_some.mp hports).2
    · simp only [Option.bind_eq_some_iff] at h
      obtain ⟨⟨s, d⟩, hports, hh⟩ := h
      cases hh
      exact (portsAt_eq_some.mp hports).2
    · cases h
    · -- ESP
      cases h
      have htcp : PROTO_ESP ≠ PROTO_TCP := by decide
      have hudp : PROTO_ESP ≠ PROTO_UDP := by decide
      exact hp.elim (absurd · htcp) (absurd · hudp)
    · cases h

theorem judgedByOwnPorts_of_plain {s : Shape} (h : s.Plain) (fw : Firewall)
    (isEgress : Bool) : JudgedByOwnPorts fw isEgress frame s := by
  obtain ⟨hihl, hoffset, htotal⟩ := h
  intro p hp hproto
  obtain ⟨hsrc, hdst⟩ := ports_of_tracked hp hproto
  refine ⟨fun _ _ => ?_, fun hne => absurd hoffset hne⟩
  unfold ownPorts
  rw [if_pos ⟨hoffset, by omega⟩, hihl]
  simp only [Option.bind_eq_bind, hsrc, hdst, Option.bind_some]
  rfl

/-! ## Frames of any shape -/

section

variable {ihl : UInt8} {total fragment : UInt16} {proto : UInt8} {src dst : Nullnet.Server.Ipv4Addr}
  {rest : Bytes}

theorem length_ipv4Frame :
    (ipv4Frame ihl total fragment proto src dst rest).length = 34 + rest.length := by
  simp [ipv4Frame, Bytes.ofBE16, Bytes.ofBE32]
  omega

theorem be16_ipv4Frame (i : ℕ) :
    (ipv4Frame ihl total fragment proto src dst rest).be16 (34 + i) = rest.be16 i :=
  Bytes.be16_append_right rfl

theorem shape_ipv4Frame (h : ihl.toNat < 16) :
    shape (ipv4Frame ihl total fragment proto src dst rest) =
      some ⟨ihl.toNat, fragment.toNat % 8192, total.toNat⟩ := by
  have htotal : (ipv4Frame ihl total fragment proto src dst rest).be16 16 = some total :=
    Bytes.be16_ofBE16 (c := []) total
  have hfragment : (ipv4Frame ihl total fragment proto src dst rest).be16 20 = some fragment :=
    Bytes.be16_ofBE16 (c := []) fragment
  have htype : (ipv4Frame ihl total fragment proto src dst rest).be16 12 = some 0x0800 := rfl
  have hfirst : (ipv4Frame ihl total fragment proto src dst rest)[14]? = some (64 + ihl) := rfl
  have hnat : (64 + ihl).toNat = 64 + ihl.toNat := by
    exact Nat.mod_eq_of_lt (show 64 + ihl.toNat < 256 by omega)
  have hversion : (64 + ihl.toNat) / 16 = 4 := by omega
  have hwords : (64 + ihl.toNat) % 16 = ihl.toNat := by omega
  unfold shape
  simp only [htotal, hfragment, htype, hfirst, hnat, Option.bind_eq_bind, Option.bind_some,
    Option.pure_def, hversion, hwords, true_and, if_true]

theorem headers_ipv4Frame {s d : UInt16} (hproto : proto = PROTO_TCP ∨ proto = PROTO_UDP)
    (hlen : 20 ≤ rest.length) (hs : rest.be16 0 = some s) (hd : rest.be16 2 = some d) :
    headers (ipv4Frame ihl total fragment proto 1#32 2#32 rest) =
      some (.tracked ⟨proto, 1#32, 2#32, s, d⟩) := by
  have hports : ∀ len ≤ 20,
      portsAt (ipv4Frame ihl total fragment proto 1#32 2#32 rest) len = some (s, d) := by
    intro len hle
    refine portsAt_eq_some.mpr ⟨?_, (be16_ipv4Frame 0).trans hs, (be16_ipv4Frame 2).trans hd⟩
    rw [length_ipv4Frame]
    omega
  have hptr : ∀ offset len, offset + len ≤ 34 →
      ptrAt (ipv4Frame ihl total fragment proto 1#32 2#32 rest) offset len = some () := by
    intro offset len hle
    refine ptrAt_eq_some.mpr ?_
    rw [length_ipv4Frame]
    omega
  have htype : (ipv4Frame ihl total fragment proto 1#32 2#32 rest).be16 12 = some 0x0800 := rfl
  have hsrc : (ipv4Frame ihl total fragment proto 1#32 2#32 rest).be32 26 = some 1#32 := rfl
  have hdst : (ipv4Frame ihl total fragment proto 1#32 2#32 rest).be32 30 = some 2#32 := rfl
  have hproto' : (ipv4Frame ihl total fragment proto 1#32 2#32 rest)[23]? = some proto := rfl
  unfold headers
  simp only [hptr 0 14 (by omega), hptr 14 20 (by omega), htype, hsrc, hdst, hproto',
    Option.bind_eq_bind, Option.bind_some]
  rcases hproto with rfl | rfl
  · rw [hports 20 (by omega)]
    rfl
  · rw [hports 8 (by omega)]
    rfl

end

/-! ## The shapes for which the ports are right -/

/-- The gateway of the network lets everything out. -/
def gateway : Firewall := { globals := ⟨0, 0, 1⟩ }

theorem gateway_allows (p : Packet) : gateway.baseAllow true p = true := by
  unfold Firewall.baseAllow
  rw [show (gateway.isGateway && true) = true from rfl, if_pos rfl]
  split_ifs <;> rfl

/-- A packet of a shape, with options that do nothing and zeros behind the header. -/
def ofShape (s : Shape) (proto : UInt8) : Bytes :=
  ipv4Frame (.ofNat s.ihl) (.ofNat s.total) (.ofNat s.offset) proto 1#32 2#32
    (List.replicate (4 * s.ihl - 20) 1 ++ List.replicate (s.total + 40) 0)

section

variable {s : Shape} {proto : UInt8}

theorem wellFormed_ofShape (h : s.Possible) : WellFormed (ofShape s proto) s := by
  obtain ⟨hihl, hihl', hoffset, hheader, htotal⟩ := h
  have hwords : (UInt8.ofNat s.ihl).toNat = s.ihl :=
    UInt8.toNat_ofNat_of_lt (Nat.lt_trans hihl' (by decide))
  have hlength : (UInt16.ofNat s.total).toNat = s.total := UInt16.toNat_ofNat_of_lt htotal
  have hfragment : (UInt16.ofNat s.offset).toNat = s.offset :=
    UInt16.toNat_ofNat_of_lt (Nat.lt_trans hoffset (by decide))
  refine ⟨?_, hihl, hheader, ?_⟩
  · rw [ofShape, shape_ipv4Frame (by rw [hwords]; exact hihl'), hwords, hlength, hfragment,
      Nat.mod_eq_of_lt hoffset]
  · rw [ofShape, length_ipv4Frame, List.length_append, List.length_replicate, List.length_replicate]
    omega

/-- The byte that is read for the ports: an option, or a zero. -/
def readByte (s : Shape) : UInt8 := if s.ihl = 5 then 0 else 1

theorem be16_ofShape (h : 5 ≤ s.ihl) {i : ℕ} (hi : i ≤ 2) :
    Bytes.be16 (List.replicate (4 * s.ihl - 20) 1 ++ List.replicate (s.total + 40) 0) i =
      some (.ofBitVec ((readByte s).toBitVec ++ (readByte s).toBitVec)) := by
  unfold readByte
  split_ifs with h5
  · rw [h5]
    exact Bytes.be16_replicate (by omega)
  · rw [Bytes.be16_append_left (by rw [List.length_replicate]; omega)]
    exact Bytes.be16_replicate (by omega)

theorem headers_ofShape (h : 5 ≤ s.ihl) (hproto : proto = PROTO_TCP ∨ proto = PROTO_UDP) :
    headers (ofShape s proto) = some (.tracked ⟨proto, 1#32, 2#32,
      .ofBitVec ((readByte s).toBitVec ++ (readByte s).toBitVec),
      .ofBitVec ((readByte s).toBitVec ++ (readByte s).toBitVec)⟩) := by
  refine headers_ipv4Frame hproto ?_ (be16_ofShape h (by omega)) (be16_ofShape h le_rfl)
  rw [List.length_append, List.length_replicate, List.length_replicate]
  omega

theorem ownPorts_ofShape (h : 5 ≤ s.ihl) {ports : UInt16 × UInt16}
    (hown : ownPorts (ofShape s proto) s = some ports) :
    s.offset = 0 ∧ 4 * s.ihl + 4 ≤ s.total ∧ ports = (0, 0) := by
  have hread : ∀ i ≤ 2, (ofShape s proto).be16 (14 + i + 4 * s.ihl) = some 0 := by
    intro i hi
    have hoffset : 14 + i + 4 * s.ihl = 34 + ((4 * s.ihl - 20) + i) := by omega
    rw [hoffset, ofShape, be16_ipv4Frame, Bytes.be16_append_right List.length_replicate]
    exact Bytes.be16_replicate (by omega)
  unfold ownPorts at hown
  split_ifs at hown with hc
  rw [hread 0 (by omega), hread 2 le_rfl] at hown
  exact ⟨hc.1, hc.2, (Option.some.inj hown).symm⟩

end

/-- **The firewall uses the real ports** of TCP and UDP packets exactly if the header has no options,
the packet is no later fragment and it has room for the ports. -/
theorem judged_by_own_ports_iff (s : Shape) (h : s.Possible) (proto : UInt8)
    (hproto : proto = PROTO_TCP ∨ proto = PROTO_UDP) :
    (∀ frame, WellFormed frame s → frame[23]? = some proto → ∀ fw isEgress,
      JudgedByOwnPorts fw isEgress frame s) ↔ s.Plain := by
  constructor
  · intro hall
    have htracked := headers_ofShape h.1 hproto
    obtain ⟨hports, hfragment⟩ := hall (ofShape s proto) (wellFormed_ofShape h) rfl gateway true _
      htracked hproto
    obtain ⟨hoffset, hroom, hzero⟩ := ownPorts_ofShape h.1 (hports rfl (gateway_allows _))
    have hihl : s.ihl = 5 := by
      -- otherwise the first options are read
      by_contra hne
      rw [show readByte s = 1 from if_neg hne] at hzero
      exact absurd (congrArg Prod.fst hzero) (show (257 : UInt16) ≠ 0 by decide)
    exact ⟨hihl, hoffset, by omega⟩
  · intro hplain frame _ _ fw isEgress
    exact judgedByOwnPorts_of_plain hplain fw isEgress

/-- A node that lets in TCP on port 443 only accepts a packet to port 22 whose router alert option has
the value 443, and a later fragment that begins with that value. Both are entered into the table. -/
theorem option_taken_for_port : ∃ fw : Firewall, fw.globals.egressGateway = 0 ∧
    fw.allowPorts = {allowKey false PROTO_TCP 443} ∧
    (∃ frame s, WellFormed frame s ∧ ownPorts frame s = some (49152, 22) ∧
      (fw.classify false frame).1 = .ok ∧ ¬JudgedByOwnPorts fw false frame s) ∧
    ∃ frame s, WellFormed frame s ∧ s.offset ≠ 0 ∧ (fw.classify false frame).1 = .ok ∧
      ¬JudgedByOwnPorts fw false frame s := by
  let fw : Firewall := { globals := ⟨0, 0, 0⟩, allowPorts := {allowKey false PROTO_TCP 443} }
  let alert := ipv4Frame 6 44 0 6 1#32 2#32 ([148, 4, 1, 187, 192, 0, 0, 22] ++ List.replicate 16 0)
  let piece := ipv4Frame 5 40 185 6 1#32 2#32 ([148, 4, 1, 187] ++ List.replicate 16 0)
  have halert : headers alert = some (.tracked ⟨PROTO_TCP, 1#32, 2#32, 37892, 443⟩) := by
    decide +kernel
  have hpiece : headers piece = some (.tracked ⟨PROTO_TCP, 1#32, 2#32, 37892, 443⟩) := by
    decide +kernel
  refine ⟨fw, rfl, rfl, ⟨alert, ⟨6, 0, 44⟩, by decide +kernel, by decide +kernel, by decide +kernel,
    fun h => ?_⟩, piece, ⟨5, 185, 40⟩, by decide +kernel, by decide, by decide +kernel, fun h => ?_⟩
  · have hports := (h _ halert (.inl rfl)).1 (by decide +kernel) (by decide +kernel)
    exact absurd hports (by decide +kernel)
  · have hshot := congrArg Prod.fst ((h _ hpiece (.inl rfl)).2 (by decide))
    exact absurd hshot (by decide +kernel)

/-- A header of 20 bytes in front of a whole TCP header. -/
theorem judged_by_own_ports_plain :
    Shape.Possible ⟨5, 0, 40⟩ ∧ ∀ frame, WellFormed frame ⟨5, 0, 40⟩ → frame[23]? = some PROTO_TCP →
      ∀ fw isEgress, JudgedByOwnPorts fw isEgress frame ⟨5, 0, 40⟩ :=
  have hpossible : Shape.Possible ⟨5, 0, 40⟩ := by unfold Shape.Possible; decide
  ⟨hpossible, (judged_by_own_ports_iff ⟨5, 0, 40⟩ hpossible PROTO_TCP (.inl rfl)).mpr
    ⟨rfl, rfl, by decide⟩⟩

end Nullnet.Ebpf
