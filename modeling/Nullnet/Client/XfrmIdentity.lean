import Nullnet.Client.Xfrm
import Nullnet.Server.Setup

/-! # The numbers of encrypted edges

The mark, the security parameter indices, and the index and the priority of the outbound policy of an
edge are 32-bit numbers packed from its transport id, its direction and its generation. Ids are below
`2 ^ 22`, so that the prefixes of the numbers and the ids do not run into each other, and the objects of
the kernel can be told apart by the id, as `Edge.state` does.

The generation of a policy transport has 40 bits and is cut to 32 (`policyEdge`). A generation whose
lower 32 bits are 0 looks like that of a shared transport, and the priorities begin again. -/

namespace Nullnet.Client.NativeXfrm

open Nullnet.Server (Ipv4Addr InRange)

/-! ## Numbers -/

def MARK_PREFIX : BitVec 32 := 0x4e800000#32
def SPI_PREFIX : BitVec 32 := 0x4e000000#32
def POLICY_INDEX_PREFIX : BitVec 32 := 0x4e000000#32

namespace Edge

variable (e : Edge)

def mark : BitVec 32 := MARK_PREFIX ||| .ofNat 32 e.id

def spi (direction : Bool) : BitVec 32 :=
  SPI_PREFIX ||| BitVec.ofNat 32 e.id <<< 1 ||| (BitVec.ofBool direction).setWidth 32

def policyIndex : BitVec 32 :=
  if e.generation = 0 then 0 else POLICY_INDEX_PREFIX ||| BitVec.ofNat 32 e.id <<< 3 ||| 1#32

/-- The kernel looks at policies with smaller numbers first. -/
def policyPriority : BitVec 32 :=
  if e.generation = 0 then 0 else BitVec.allOnes 32 - .ofNat 32 e.generation

end Edge

def sharedEdge (id : ℕ) (localIp remoteIp : Ipv4Addr) (port : UInt16) : Edge :=
  ⟨id, 0, localIp, remoteIp, port⟩

/-- The edge that `Engine::peer` installs: the generation is cut to 32 bits. -/
def policyEdge (id generation : ℕ) (localIp remoteIp : Ipv4Addr) (port : UInt16) : Edge :=
  ⟨id, generation % 2 ^ 32, localIp, remoteIp, port⟩

/-! ## Key material -/

section

variable (digest : List UInt8 → List UInt8)

/-- Hexadecimal digits in lower case. -/
def hex (bytes : List UInt8) : List UInt8 :=
  let digit (n : UInt8) : UInt8 := if n < 10 then 48 + n else 87 + n
  bytes.flatMap fun b : UInt8 => [digit (b >>> 4), digit (b &&& 15)]

def keyMaterial (key : List UInt8) (direction : Bool) : List UInt8 :=
  let derived := digest (hex key ++ [if direction then 49 else 48])
  derived ++ (digest (hex derived)).take 4

/-- A security association as `state_message` describes it. -/
structure Association where
  source : Ipv4Addr
  destination : Ipv4Addr
  spi : BitVec 32
  mark : BitVec 32
  material : List UInt8
  inbound : Bool

def Edge.association (e : Edge) (direction : Bool) (key : List UInt8) : Association :=
  let inbound := direction != e.direction
  { source := if inbound then e.remoteIp else e.localIp
    destination := if inbound then e.localIp else e.remoteIp
    spi := e.spi direction
    mark := e.mark
    material := keyMaterial digest key direction
    inbound }

end

/-! ## Transports -/

def SHARED_XFRM_ID_START : ℕ := 0x100000
def POLICY_XFRM_ID_START : ℕ := 0x200000

/-- The ids of the transports that hosts share, and of those that policy edges have for themselves. -/
def IsTransport (id : ℕ) : Prop :=
  (∃ k < 2 ^ 20, id = SHARED_XFRM_ID_START + k) ∨
    ∃ n, InRange .vxlan n ∧ id = POLICY_XFRM_ID_START + n

theorem IsTransport.lt {id : ℕ} (h : IsTransport id) : id < 2 ^ 22 := by
  rcases h with ⟨k, hk, rfl⟩ | ⟨n, ⟨-, hn⟩, rfl⟩
  · simp only [SHARED_XFRM_ID_START]; omega
  · simp only [POLICY_XFRM_ID_START, Server.MAX_NET_ID] at *; omega

section

variable {e e' : Edge}

theorem toNat_mark (h : e.id < 2 ^ 22) : e.mark.toNat = 0x4e800000 + e.id := by
  rw [Edge.mark, BitVec.toNat_or, BitVec.toNat_ofNat, Nat.mod_eq_of_lt (by omega)]
  exact (Nat.two_pow_add_eq_or_of_lt (i := 23) (by omega) 0x9d).symm

theorem toNat_spi (h : e.id < 2 ^ 22) (d : Bool) :
    (e.spi d).toNat = 0x4e000000 + (2 * e.id + d.toNat) := by
  have hd : ((BitVec.ofBool d).setWidth 32).toNat = d.toNat := by cases d <;> rfl
  have hlow : e.id * 2 + d.toNat = e.id * 2 ||| d.toNat := by
    have := Nat.two_pow_add_eq_or_of_lt (i := 1) d.toNat_lt e.id
    rwa [pow_one, Nat.mul_comm] at this
  have hid : (BitVec.ofNat 32 e.id <<< 1).toNat = e.id * 2 := by
    rw [BitVec.toNat_shiftLeft, BitVec.toNat_ofNat, Nat.shiftLeft_eq]
    omega
  have hbound := d.toNat_lt
  rw [Edge.spi, BitVec.or_assoc, BitVec.toNat_or, BitVec.toNat_or, hd, hid, ← hlow]
  refine (Nat.two_pow_add_eq_or_of_lt (i := 25) ?_ 39).symm.trans ?_ <;> omega

theorem toNat_policyIndex (h : e.id < 2 ^ 22) (hgen : e.generation ≠ 0) :
    e.policyIndex.toNat = 0x4e000000 + (8 * e.id + 1) := by
  have hlow : e.id * 8 + 1 = e.id * 8 ||| 1 := by
    have := Nat.two_pow_add_eq_or_of_lt (i := 3) (b := 1) (by decide) e.id
    rwa [show 2 ^ 3 = 8 from rfl, Nat.mul_comm] at this
  have hid : (BitVec.ofNat 32 e.id <<< 3).toNat = e.id * 8 := by
    rw [BitVec.toNat_shiftLeft, BitVec.toNat_ofNat, Nat.shiftLeft_eq]
    omega
  rw [Edge.policyIndex, if_neg hgen, BitVec.or_assoc, BitVec.toNat_or, BitVec.toNat_or, hid,
    show (1#32).toNat = 1 from rfl, ← hlow]
  refine (Nat.two_pow_add_eq_or_of_lt (i := 25) ?_ 39).symm.trans ?_ <;> omega

theorem toNat_policyPriority (h : e.generation < 2 ^ 32) (hgen : e.generation ≠ 0) :
    e.policyPriority.toNat = 2 ^ 32 - 1 - e.generation := by
  have hle : BitVec.ofNat 32 e.generation ≤ BitVec.allOnes 32 := by
    rw [BitVec.le_def, BitVec.toNat_allOnes, BitVec.toNat_ofNat]
    omega
  rw [Edge.policyPriority, if_neg hgen, BitVec.toNat_sub_of_le hle, BitVec.toNat_allOnes,
    BitVec.toNat_ofNat, Nat.mod_eq_of_lt h]

theorem mark_inj (h : e.id < 2 ^ 22) (h' : e'.id < 2 ^ 22) (hmark : e.mark = e'.mark) :
    e.id = e'.id := by
  have := congrArg BitVec.toNat hmark
  rw [toNat_mark h, toNat_mark h'] at this
  omega

theorem spi_inj (h : e.id < 2 ^ 22) (h' : e'.id < 2 ^ 22) {d d' : Bool} (hspi : e.spi d = e'.spi d') :
    e.id = e'.id ∧ d = d' := by
  have := congrArg BitVec.toNat hspi
  rw [toNat_spi h, toNat_spi h'] at this
  have hd := d.toNat_lt
  have hd' := d'.toNat_lt
  have hdd : d.toNat = d'.toNat := by omega
  refine ⟨by omega, ?_⟩
  revert hdd
  cases d <;> cases d' <;> decide

end

/-! ## The plan -/

/-- Both hosts describe the same association for a direction, one of them as inbound. -/
def Agree (x y : Association) : Prop :=
  x.source = y.source ∧ x.destination = y.destination ∧ x.spi = y.spi ∧ x.material = y.material ∧
    x.inbound = !y.inbound

/-- The identity plan for a generation `g` and a later one `g'`. -/
structure IdentityPlan (digest : List UInt8 → List UInt8) (g g' : ℕ) : Prop where
  /-- The hosts of a transport agree on both directions. -/
  shared : ∀ id a b port key d, IsTransport id → a ≠ b →
    Agree ((sharedEdge id a b port).association digest d key)
      ((sharedEdge id b a port).association digest d key)
  policy : ∀ id a b port key d, IsTransport id → a ≠ b → ∀ gen ∈ [g, g'],
    Agree ((policyEdge id gen a b port).association digest d key)
      ((policyEdge id gen b a port).association digest d key)
  /-- Different transports have different marks and indices. -/
  apart : ∀ e e' : Edge, IsTransport e.id → IsTransport e'.id → e.id ≠ e'.id →
    e.mark ≠ e'.mark ∧ ∀ d d', e.spi d ≠ e'.spi d'
  /-- Different policy transports have different outbound policies, found by an index. -/
  indices : ∀ n n' a b a' b' port port', InRange .vxlan n → InRange .vxlan n' → n ≠ n' →
    ∀ gen ∈ [g, g'], ∀ gen' ∈ [g, g'],
      (policyEdge (POLICY_XFRM_ID_START + n) gen a b port).policyIndex ≠ 0 ∧
      (policyEdge (POLICY_XFRM_ID_START + n) gen a b port).policyIndex ≠
        (policyEdge (POLICY_XFRM_ID_START + n') gen' a' b' port').policyIndex
  /-- The policy of the later generation is not looked at after that of the earlier one. -/
  priority : ∀ n a b port, InRange .vxlan n →
    (policyEdge (POLICY_XFRM_ID_START + n) g' a b port).policyPriority ≤
      (policyEdge (POLICY_XFRM_ID_START + n) g a b port).policyPriority

theorem agree_hosts (digest : List UInt8 → List UInt8) {e f : Edge} (hid : f.id = e.id)
    (hlocal : f.localIp = e.remoteIp) (hremote : f.remoteIp = e.localIp)
    (hne : e.localIp ≠ e.remoteIp) (key : List UInt8) (d : Bool) :
    Agree (e.association digest d key) (f.association digest d key) := by
  have hdir : f.direction = !e.direction := by
    unfold Edge.direction
    rw [hlocal, hremote]
    by_cases hlt : e.localIp < e.remoteIp
    · rw [decide_eq_true hlt, decide_eq_false (BitVec.lt_asymm hlt)]; rfl
    · have hgt := BitVec.lt_of_le_ne (BitVec.not_lt.mp hlt) hne.symm
      rw [decide_eq_false hlt, decide_eq_true hgt]; rfl
  simp only [Agree, Edge.association, Edge.spi, hid, hdir, hlocal, hremote]
  cases d <;> cases e.direction <;> simp

theorem policyPriority_le_iff {g g' id : ℕ} {a b : Ipv4Addr} {port : UInt16}
    (hg : g % 2 ^ 32 ≠ 0) (hg' : g' % 2 ^ 32 ≠ 0) :
    (policyEdge id g' a b port).policyPriority ≤ (policyEdge id g a b port).policyPriority ↔
      g % 2 ^ 32 ≤ g' % 2 ^ 32 := by
  have hlt : g % 2 ^ 32 < 2 ^ 32 := Nat.mod_lt _ (by decide)
  have hlt' : g' % 2 ^ 32 < 2 ^ 32 := Nat.mod_lt _ (by decide)
  rw [BitVec.le_def, toNat_policyPriority (e := policyEdge id g a b port) hlt hg,
    toNat_policyPriority (e := policyEdge id g' a b port) hlt' hg']
  simp only [policyEdge]
  omega

/-- **The identity plan** holds for a generation and a later one exactly if the lower 32 bits of
neither are 0 and they are in order. -/
theorem identity_plan_iff (digest : List UInt8 → List UInt8) (g g' : ℕ) :
    IdentityPlan digest g g' ↔ g % 2 ^ 32 ≠ 0 ∧ g' % 2 ^ 32 ≠ 0 ∧ g % 2 ^ 32 ≤ g' % 2 ^ 32 := by
  have hn : InRange .vxlan 101 := by decide
  have hn' : InRange .vxlan 102 := by decide
  constructor
  · intro h
    have hnonzero : ∀ gen ∈ [g, g'], gen % 2 ^ 32 ≠ 0 := fun gen hgen h0 =>
      (h.indices 101 102 0 0 0 0 0 0 hn hn' (by decide) gen hgen gen hgen).1 (if_pos h0)
    have hg := hnonzero g (by simp)
    have hg' := hnonzero g' (by simp)
    have hle := h.priority 101 0 0 0 hn
    rw [policyPriority_le_iff hg hg'] at hle
    exact ⟨hg, hg', hle⟩
  · rintro ⟨hg, hg', hle⟩
    have hnonzero : ∀ gen ∈ [g, g'], gen % 2 ^ 32 ≠ 0 := by
      rintro gen (_ | ⟨_, _ | ⟨_, hgen⟩⟩)
      exacts [hg, hg', nomatch hgen]
    refine ⟨fun id a b port key d _ hne =>
        agree_hosts digest (e := sharedEdge id a b port) (f := sharedEdge id b a port)
          rfl rfl rfl hne key d,
      fun id a b port key d _ hne gen _ =>
        agree_hosts digest (e := policyEdge id gen a b port) (f := policyEdge id gen b a port)
          rfl rfl rfl hne key d,
      fun e e' h h' hne => ⟨fun hmark => hne (mark_inj h.lt h'.lt hmark),
        fun d d' hspi => hne (spi_inj h.lt h'.lt hspi).1⟩,
      fun n n' a b a' b' port port' h h' hne gen hgen gen' hgen' => ?_,
      fun n a b port _ => (policyPriority_le_iff hg hg').mpr hle⟩
    have hindex := toNat_policyIndex (e := policyEdge (POLICY_XFRM_ID_START + n) gen a b port)
      (IsTransport.lt (.inr ⟨n, h, rfl⟩)) (hnonzero gen hgen)
    have hindex' := toNat_policyIndex (e := policyEdge (POLICY_XFRM_ID_START + n') gen' a' b' port')
      (IsTransport.lt (.inr ⟨n', h', rfl⟩)) (hnonzero gen' hgen')
    refine ⟨fun h0 => ?_, fun heq => ?_⟩
    · rw [h0] at hindex
      simp at hindex
    · rw [heq, hindex'] at hindex
      simp only [policyEdge] at hindex
      omega

/-- A policy of generation `2 ^ 32` has index 0 whichever edge it is of, and after it the priorities
begin again. -/
theorem generation_wraps :
    (policyEdge (POLICY_XFRM_ID_START + 101) (2 ^ 32) 1#32 2#32 4791).policyIndex = 0 ∧
    (policyEdge (POLICY_XFRM_ID_START + 102) (2 ^ 32) 1#32 3#32 4791).policyIndex = 0 ∧
    (policyEdge (POLICY_XFRM_ID_START + 101) 2 1#32 2#32 4791).policyPriority <
      (policyEdge (POLICY_XFRM_ID_START + 101) (2 ^ 32 + 1) 1#32 2#32 4791).policyPriority ∧
    ∀ digest, ¬IdentityPlan digest (2 ^ 32) (2 ^ 32) ∧ ¬IdentityPlan digest 2 (2 ^ 32 + 1) := by
  refine ⟨by decide, by decide, by decide, fun digest => ⟨fun h => ?_, fun h => ?_⟩⟩
  · exact (h.indices 101 102 0 0 0 0 0 0 (by decide) (by decide) (by decide) (2 ^ 32) (by simp)
      (2 ^ 32) (by simp)).1 (by decide)
  · exact absurd (h.priority 101 0 0 0 (by decide)) (by decide)

end Nullnet.Client.NativeXfrm
