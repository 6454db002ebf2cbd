import Nullnet.Client.Steering

/-! # The purge at startup

`purge_stale_steers` deletes what an earlier process has left: policy rules that look like those of
`install_steer`, in this layout or the older one, and translations of what leaves by a device `br_…`.
It overlooks nothing of the current layout, but may take other rules of the host for ours
(`foreign_rules_purged`). -/

namespace Nullnet.Client.Steering

open Nullnet.Server (Ipv4Addr)

/-! ## Rules of POSTROUTING -/

/-- The words of a line have `-j SNAT` in them, as the line has. -/
def hasSnat : List String → Bool
  | u :: v :: words =>
    "-j".toList.isSuffixOf u.toList && "SNAT".toList.isPrefixOf v.toList || hasSnat (v :: words)
  | _ => false

/-- The word after the first `-o`. -/
def outDevice (words : List String) : Option String := (words.dropWhile (· ≠ "-o"))[1]?

/-- `iptables -S` prints a rule as the words that add it. -/
def isOverlaySnat (words : List String) : Bool :=
  words.take 2 = ["-A", "POSTROUTING"] && hasSnat words &&
    (outDevice words).any fun dev => "br_".toList.isPrefixOf dev.toList

def parseOverlaySnatRules (out : List (List String)) : List (List String) :=
  (out.filter isOverlaySnat).map fun words => "-D" :: words.tail

def bridge (netId : ℕ) (client : Bool) : String :=
  "br_" ++ toString netId ++ if client then "_c" else "_s"

def Edge.snatWords (e : Edge) : List String :=
  ["-A", "POSTROUTING", "-s", e.containerIp.text ++ "/32", "-o", e.brDev, "-j", "SNAT",
    "--to-source", e.snatSrc.text]

/-! ## Layouts -/

/-- The policy rules of an edge, in both layouts. -/
def steerLayout (base : ℕ) (protocol : Option ℕ) (ip : Ipv4Addr) (netId : ℕ) : List IpRule :=
  (INTERNAL_RANGES.zipIdx.map fun x =>
    { priority := base + x.2, source := .host ip, destination := some x.1, table := some 254
      protocol := protocol }) ++
  [{ priority := base + 15, source := .host ip, table := some (tableFor netId)
     protocol := protocol }]

/-- Some `install_steer` may have made the rule. -/
def Made (r : IpRule) : Prop :=
  ∃ ip id, MIN_NET_ID ≤ id ∧ id ≤ MAX_NET_ID ∧
    (r ∈ steerLayout STEER_PRIO_BASE (some STEER_PROTOCOL) ip id ∨
      r ∈ steerLayout (1000 + id * 16) none ip id)

namespace SteerRule

/-- The fields of a rule that keeps an internal range in the main table. -/
def IsBypassAt (d : SteerRule) (base : ℕ) : Prop :=
  d.table = .text "main" ∧ ∃ x ∈ INTERNAL_RANGES.zipIdx,
    d.destination = some (.text x.1) ∧ d.priority = base + x.2

/-- The fields of a rule that sends everything to the table of a network. -/
def IsCatchAllAt (d : SteerRule) (base id : ℕ) : Prop :=
  (MIN_NET_ID ≤ id ∧ id ≤ MAX_NET_ID) ∧ d.table = .number (tableFor id) ∧ d.destination = none ∧
    d.priority = base + 15

def IsLegacy (d : SteerRule) (id : ℕ) : Prop :=
  d.protocol = none ∧ d.IsCatchAllAt (1000 + id * 16) id ∧ d.priority < 32766

/-- The fields are those of the current layout, or of the older one if the table has the rule of a network
for the source. The older bypasses may have any protocol. -/
def LooksOurs (out : List (ℕ × List Word)) (d : SteerRule) : Prop :=
  d.protocol = some (.number STEER_PROTOCOL) ∧
      (d.IsBypassAt STEER_PRIO_BASE ∨ ∃ id, d.IsCatchAllAt STEER_PRIO_BASE id) ∨
    d.protocol ≠ some (.number STEER_PROTOCOL) ∧ ∃ id, ∃ c ∈ parseSteerRules out,
      c.IsLegacy id ∧ c.source = d.source ∧ (d.IsBypassAt (1000 + id * 16) ∨ d.IsLegacy id)

end SteerRule

/-! ## What is selected -/

variable {out : List (ℕ × List Word)} {r : IpRule} {d : SteerRule} {id base : ℕ}

theorem steerId_eq_some : steerId d = some id ↔
    d.protocol = some (.number STEER_PROTOCOL) ∧ d.IsCatchAllAt STEER_PRIO_BASE id ∨ d.IsLegacy id := by
  unfold SteerRule.IsLegacy SteerRule.IsCatchAllAt steerId
  constructor
  · intro h
    split at h
    · rename_i n hn
      rw [Option.ite_none_left_eq_some, Option.ite_none_left_eq_some,
        Option.ite_none_right_eq_some, Option.some.injEq] at h
      obtain ⟨hlt, hrange, hlayout, rfl⟩ := h
      rw [not_or, not_or, Nat.not_lt, Nat.not_lt, Bool.not_eq_true, Option.isSome_eq_false_iff,
        Option.isNone_iff_eq_none] at hrange
      have htable : d.table = .number (tableFor (n - TABLE_OFFSET)) := by
        rw [hn, tableFor, Nat.add_sub_cancel' (Nat.not_lt.mp hlt)]
      rw [Option.isNone_iff_eq_none] at hlayout
      have hin : MIN_NET_ID ≤ n - TABLE_OFFSET ∧ n - TABLE_OFFSET ≤ MAX_NET_ID := ⟨hrange.1, hrange.2.1⟩
      exact hlayout.imp (fun hl => ⟨hl.1, hin, htable, hrange.2.2, hl.2⟩)
        fun hl => ⟨hl.1, ⟨hin, htable, hrange.2.2, hl.2.1⟩, hl.2.2⟩
    · cases h
  · rintro (⟨hp, ⟨hmin, hmax⟩, ht, hd, hprio⟩ | ⟨hp, ⟨⟨hmin, hmax⟩, ht, hd, hprio⟩, hlt⟩)
    · simp [ht, tableFor, hd, hp, hprio, Nat.not_lt.mpr hmin, Nat.not_lt.mpr hmax]
    · rw [hprio] at hlt
      simp [ht, tableFor, hd, hp, hprio, hlt, Nat.not_lt.mpr hmin, Nat.not_lt.mpr hmax]

theorem SteerRule.isBypassAt_iff : d.IsBypassAt base ↔
    d.isBypass = true ∧ (rangeIndex d.destination).any (fun i => d.priority = base + i) = true := by
  rw [SteerRule.isBypass, decide_eq_true_eq, Option.any_eq_true, SteerRule.IsBypassAt, and_assoc]
  refine and_congr_right fun _ => ⟨?_, ?_⟩
  · rintro ⟨x, hx, hd, hprio⟩
    have hi := rangeIndex_of_mem hx
    rw [hd]
    exact ⟨hi ▸ rfl, x.2, hi, decide_eq_true hprio⟩
  · rintro ⟨-, i, hi, hprio⟩
    obtain ⟨hlt, hd, -⟩ := List.findIdx?_eq_some_iff_getElem.mp hi
    exact ⟨(INTERNAL_RANGES[i], i), List.mk_mem_zipIdx_iff_getElem?.mpr (List.getElem?_eq_getElem hlt),
      of_decide_eq_true hd, of_decide_eq_true hprio⟩

theorem ite_isBypass {b : Bool} (hb : b = true → d.destination = none) :
    (if d.isBypass then (rangeIndex d.destination).any (fun i => d.priority = base + i) else b) = true ↔
      d.IsBypassAt base ∨ b = true := by
  rw [SteerRule.isBypassAt_iff]
  split_ifs with h
  · have hfalse : ¬ b = true := fun hbt => by simp [SteerRule.isBypass, hb hbt, rangeIndex] at h
    simp [h, hfalse]
  · simp [h]

theorem mem_legacy {rules : List SteerRule} {l : ℕ × Ipv4Addr} :
    l ∈ (rules.filterMap fun r =>
        if r.protocol.isNone then (steerId r).map fun id => (id, r.source) else none) ↔
      ∃ c ∈ rules, c.IsLegacy l.1 ∧ c.source = l.2 := by
  rw [List.mem_filterMap]
  refine exists_congr fun c => and_congr_right fun _ => ?_
  split_ifs with hn
  · rw [Option.isNone_iff_eq_none] at hn
    simp [Option.map_eq_some_iff, steerId_eq_some, hn, Prod.ext_iff]
  · exact ⟨nofun, fun h => absurd (Option.isNone_iff_eq_none.mpr h.1.1) hn⟩

/-- **The selected rules are those that look like ours.** -/
theorem mem_ownedSteerRules :
    d ∈ ownedSteerRules out none ↔ d ∈ parseSteerRules out ∧ d.LooksOurs out := by
  rw [ownedSteerRules, List.mem_filter]
  refine and_congr_right fun _ => ?_
  have hdest : ∀ id, steerId d = some id → d.destination = none := fun id h =>
    (steerId_eq_some.mp h).elim (·.2.2.2.1) (·.2.1.2.2.1)
  unfold SteerRule.LooksOurs isOwned
  simp only [Option.any_none, Bool.false_eq_true, if_false, Option.all_none, or_false]
  by_cases hp : d.protocol = some (.number STEER_PROTOCOL)
  · have hno : ∀ id, ¬ d.IsLegacy id := fun id h => nomatch hp.symm.trans h.1
    rw [if_pos hp, ite_isBypass fun h => ?_]
    · simp [hp, Option.isSome_iff_exists, steerId_eq_some, hno]
    · obtain ⟨id, hid, -⟩ := (Option.any_eq_true _ _).mp h
      exact hdest id hid
  · rw [if_neg hp, List.any_eq_true]
    have hsome : ∀ id, steerId d = some id ↔ d.IsLegacy id := fun id => by simp [steerId_eq_some, hp]
    have htest : ∀ l : ℕ × Ipv4Addr, (if l.2 ≠ d.source then false else
        if d.isBypass then (rangeIndex d.destination).any fun i => d.priority = 1000 + l.1 * 16 + i
        else steerId d = some l.1) = true ↔
        l.2 = d.source ∧ (d.IsBypassAt (1000 + l.1 * 16) ∨ d.IsLegacy l.1) := by
      intro l
      rw [← (ite_isBypass fun h => hdest l.1 (of_decide_eq_true h)).trans
        (or_congr_right (decide_eq_true_iff.trans (hsome l.1)))]
      by_cases hl : l.2 = d.source <;> simp [hl]
    simp only [hp, false_and, false_or, htest, mem_legacy, Prod.exists]
    constructor
    · rintro ⟨id, source, ⟨c, hc, hl, rfl⟩, hs, h⟩
      exact ⟨hp, id, c, hc, hl, hs, h⟩
    · rintro ⟨-, id, c, hc, hl, hs, h⟩
      exact ⟨id, c.source, ⟨c, hc, hl, rfl⟩, hs, h⟩

/-! ## What was made -/

/-- What is read of a rule without other attributes, whose destination is no key, is all there is. -/
theorem parse_plain (hsel : r.selectors = []) (hkey : ∀ k ∈ r.destination, k ∉ ["from", "to", "lookup", "proto"])
    (h : parseSteerRule r.line = some d) :
    ∃ n, r = ⟨d.priority, .host d.source, r.destination, [], some n, r.protocol⟩ ∧
      d.table = (if n = 254 then .text "main" else .number n) ∧
      d.destination = r.destination.map .text ∧ d.protocol = r.protocol.map .number := by
  obtain ⟨priority, source, destination, selectors, table, protocol⟩ := r
  obtain rfl := hsel
  cases source with
  | host ip =>
    cases table with
    | none => cases destination <;> cases protocol <;>
        simp_all [parseSteerRule, IpRule.line, Source.word, field]
    | some n =>
      refine ⟨n, ?_⟩
      cases destination <;> cases protocol <;>
        simp_all [parseSteerRule, IpRule.line, Source.word, field] <;> subst h <;> simp
  | _ => cases h

theorem parse_destination {k : String} (hk : r.destination = some k)
    (h : parseSteerRule r.line = some d) : d.destination = some (.text k) := by
  obtain ⟨priority, source, destination, selectors, table, protocol⟩ := r
  obtain rfl := hk
  cases source with
  | host ip =>
    unfold parseSteerRule at h
    split at h
    · exact (Option.some.inj h) ▸ rfl
    · cases h
  | _ => cases h

section

variable (hsel : r.selectors = []) (hparse : parseSteerRule r.line = some d)

include hparse

theorem destination_ne_key (h : d.IsBypassAt base ∨ ∃ id, d.IsCatchAllAt base id) :
    ∀ k ∈ r.destination, k ∉ ["from", "to", "lookup", "proto"] := by
  have hranges : ∀ x ∈ INTERNAL_RANGES.zipIdx, x.1 ∉ ["from", "to", "lookup", "proto"] := by decide
  intro k hk
  rcases h with ⟨-, x, hx, hd, -⟩ | ⟨id, -, -, hd, -⟩
  · obtain rfl := Word.text.inj (Option.some.inj (hd.symm.trans (parse_destination hk hparse)))
    exact hranges x hx
  · exact nomatch hd.symm.trans (parse_destination hk hparse)

include hsel

theorem mem_layout_of_bypassAt (h : d.IsBypassAt base) (id : ℕ) :
    r ∈ steerLayout base r.protocol d.source id := by
  obtain ⟨n, hr, htable, hdest, -⟩ := parse_plain hsel (destination_ne_key hparse (.inl h)) hparse
  obtain ⟨hmain, x, hx, hd, hprio⟩ := h
  have hn : n = 254 := by
    by_contra hn
    rw [if_neg hn, hmain] at htable
    cases htable
  have hrange : r.destination = some x.1 := by
    rw [hd] at hdest
    simpa using hdest.symm
  rw [hn, hrange, hprio] at hr
  exact List.mem_append_left _ (List.mem_map.mpr ⟨x, hx, hr.symm⟩)

theorem mem_layout_of_catchAllAt (h : d.IsCatchAllAt base id) :
    r ∈ steerLayout base r.protocol d.source id := by
  obtain ⟨n, hr, htable, hdest, -⟩ := parse_plain hsel (destination_ne_key hparse (.inr ⟨id, h⟩)) hparse
  obtain ⟨-, hnumber, hnone, hprio⟩ := h
  have hn : n = tableFor id := by
    rw [hnumber] at htable
    split_ifs at htable
    exact (Word.number.inj htable).symm
  have hd : r.destination = none := by
    rw [hnone] at hdest
    exact Option.map_eq_none_iff.mp hdest.symm
  rw [hd, hn, hprio] at hr
  exact List.mem_append_right _ (List.mem_singleton.mpr hr)

/-- **A rule that looks like ours was made by some `install_steer`** if it has no attributes that are not
looked at, and no protocol of others. -/
theorem made_of_looksOurs (hproto : ∀ n ∈ r.protocol, n = STEER_PROTOCOL) (h : d.LooksOurs out) :
    Made r := by
  rcases h with ⟨hp, h⟩ | ⟨hp, id, c, -, hc, -, h⟩
  · have hours : r.protocol = some STEER_PROTOCOL := by
      obtain ⟨-, -, -, -, hd⟩ := parse_plain hsel (destination_ne_key hparse h) hparse
      rw [hp] at hd
      simpa using hd.symm
    rcases h with h | ⟨id, h⟩
    · exact ⟨d.source, MIN_NET_ID, le_rfl, by decide, .inl (hours ▸ mem_layout_of_bypassAt hsel hparse h _)⟩
    · exact ⟨d.source, id, h.1.1, h.1.2, .inl (hours ▸ mem_layout_of_catchAllAt hsel hparse h)⟩
  · have hlayout : d.IsBypassAt (1000 + id * 16) ∨ ∃ id', d.IsCatchAllAt (1000 + id * 16) id' :=
      h.imp_right fun hl => ⟨id, hl.2.1⟩
    have hnone : r.protocol = none := by
      obtain ⟨-, -, -, -, hd⟩ := parse_plain hsel (destination_ne_key hparse hlayout) hparse
      by_contra hne
      obtain ⟨n, hn⟩ := Option.ne_none_iff_exists'.mp hne
      rw [hn, hproto n hn] at hd
      exact hp hd
    refine ⟨d.source, id, hc.2.1.1.1, hc.2.1.1.2, .inr (hnone ▸ ?_)⟩
    exact h.elim (mem_layout_of_bypassAt hsel hparse · id) fun hl => mem_layout_of_catchAllAt hsel hparse hl.2.1

end

/-! ## All rules of the current layout -/

theorem isOwned_current {legacy : List (ℕ × Ipv4Addr)} {e : Edge} (hid : MIN_NET_ID ≤ e.netId ∧ e.netId ≤ MAX_NET_ID)
    (hr : r ∈ e.rules) : ∃ d, parseSteerRule r.line = some d ∧ isOwned legacy none d = true := by
  rcases List.mem_append.mp hr with hr | hr
  · obtain ⟨x, hx, rfl⟩ := List.mem_map.mp hr
    refine ⟨_, parse_of_fits (fun _ _ => List.not_mem_nil) (List.fst_mem_of_mem_zipIdx hx)
      (fits_bypass e.containerIp x.1 x.2), ?_⟩
    simp [isOwned, SteerRule.isBypass, bypassDeletion, rangeIndex_of_mem hx]
  · rw [List.mem_singleton.mp hr]
    refine ⟨_, parse_catchAll e.containerIp e.netId, ?_⟩
    simp [isOwned, SteerRule.isBypass, steerId, tableFor]
    omega

theorem prefix_bridge (netId : ℕ) (client : Bool) :
    "br_".toList.isPrefixOf (bridge netId client).toList = true := by
  rw [List.isPrefixOf_iff_prefix, bridge, String.toList_append, String.toList_append,
    List.append_assoc]
  exact List.prefix_append _ _

theorem isOverlaySnat_words {e : Edge} {client : Bool} (h : e.brDev = bridge e.netId client) :
    isOverlaySnat e.snatWords = true := by
  have hsource : e.containerIp.text ++ "/32" ≠ "-o" := by
    intro he
    have := congrArg (fun s => s.toList.getLast?) he
    simp at this
  have hdev : outDevice e.snatWords = some e.brDev := by
    simp [outDevice, Edge.snatWords, hsource]
  have hsnat : hasSnat e.snatWords = true := by
    simp [hasSnat, Edge.snatWords]
  rw [isOverlaySnat, hdev, hsnat, Option.any_some, h, prefix_bridge]
  rfl

/-- What the purge selects: policy rules of a layout, and translations for our bridges. -/
def PurgesOurs (rules : List IpRule) (chain : List (List String)) : Prop :=
  (∀ r ∈ rules, ∀ d ∈ ownedSteerRules (rules.map IpRule.line) none, parseSteerRule r.line = some d →
    Made r) ∧
  ∀ args ∈ parseOverlaySnatRules chain, ∃ id client, outDevice args = some (bridge id client)

/-- A policy rule with the fields of a layout has no other attributes and no protocol of others, and a
translation for a device `br_…` is for a bridge of ours. -/
def NoLookAlikes (rules : List IpRule) (chain : List (List String)) : Prop :=
  (∀ r ∈ rules, ∀ d, parseSteerRule r.line = some d → d.LooksOurs (rules.map IpRule.line) →
    r.selectors = [] ∧ ∀ n ∈ r.protocol, n = STEER_PROTOCOL) ∧
  ∀ words ∈ chain, words.take 2 = ["-A", "POSTROUTING"] → hasSnat words →
    ∀ dev ∈ outDevice words, "br_".toList.isPrefixOf dev.toList → ∃ id client, dev = bridge id client

theorem mem_steerLayout {protocol : Option ℕ} {ip : Ipv4Addr} (h : r ∈ steerLayout base protocol ip id) :
    r.selectors = [] ∧ r.protocol = protocol := by
  rcases List.mem_append.mp h with h | h
  · obtain ⟨x, -, rfl⟩ := List.mem_map.mp h
    exact ⟨rfl, rfl⟩
  · rw [List.mem_singleton.mp h]
    exact ⟨rfl, rfl⟩

theorem outDevice_deletion {words : List String} (h : words.take 2 = ["-A", "POSTROUTING"]) :
    outDevice ("-D" :: words.tail) = outDevice words := by
  cases words with
  | nil => cases h
  | cons u words =>
    obtain ⟨rfl, -⟩ := List.cons.inj h
    simp [outDevice]

theorem mem_parseOverlaySnatRules {chain : List (List String)} {args : List String} :
    args ∈ parseOverlaySnatRules chain ↔ ∃ words ∈ chain, args = "-D" :: words.tail ∧
      words.take 2 = ["-A", "POSTROUTING"] ∧ hasSnat words ∧
      ∃ dev ∈ outDevice words, "br_".toList.isPrefixOf dev.toList := by
  simp only [parseOverlaySnatRules, List.mem_map, List.mem_filter, isOverlaySnat, Bool.and_eq_true,
    decide_eq_true_eq, Option.any_eq_true, Option.mem_def]
  grind

theorem purgesOurs_iff (rules : List IpRule) (chain : List (List String)) :
    PurgesOurs rules chain ↔ NoLookAlikes rules chain := by
  refine and_congr ⟨fun h r hr d hparse hd => ?_, fun h r hr d hd hparse => ?_⟩ ⟨fun h => ?_, fun h => ?_⟩
  · have hmem : d ∈ parseSteerRules (rules.map IpRule.line) :=
      List.mem_filterMap.mpr ⟨r.line, List.mem_map_of_mem hr, hparse⟩
    obtain ⟨ip, id, -, -, hl | hl⟩ := h r hr d (mem_ownedSteerRules.mpr ⟨hmem, hd⟩) hparse
    all_goals exact ⟨(mem_steerLayout hl).1, by simp [(mem_steerLayout hl).2]⟩
  · have hours := (mem_ownedSteerRules.mp hd).2
    obtain ⟨hsel, hproto⟩ := h r hr d hparse hours
    exact made_of_looksOurs hsel hparse hproto hours
  · intro words hw hchain hsnat dev hdev hpre
    obtain ⟨id, client, hb⟩ :=
      h _ (mem_parseOverlaySnatRules.mpr ⟨words, hw, rfl, hchain, hsnat, dev, hdev, hpre⟩)
    rw [outDevice_deletion hchain] at hb
    exact ⟨id, client, Option.some.inj (hdev.symm.trans hb)⟩
  · rintro args hargs
    obtain ⟨words, hw, rfl, hchain, hsnat, dev, hdev, hpre⟩ := mem_parseOverlaySnatRules.mp hargs
    obtain ⟨id, client, rfl⟩ := h words hw hchain hsnat dev hdev hpre
    exact ⟨id, client, (outDevice_deletion hchain).trans hdev⟩

/-- **The purge selects nothing but ours exactly if nothing of others looks like ours, and it always
selects all of the current layout.** -/
theorem purge_exact (rules : List IpRule) (chain : List (List String)) :
    (PurgesOurs rules chain ↔ NoLookAlikes rules chain) ∧
    ∀ e : Edge, MIN_NET_ID ≤ e.netId ∧ e.netId ≤ MAX_NET_ID →
      (∃ client, e.brDev = bridge e.netId client) →
      (∀ r ∈ rules, r ∈ e.rules → ∃ d ∈ ownedSteerRules (rules.map IpRule.line) none,
        parseSteerRule r.line = some d) ∧
      (e.snatWords ∈ chain → "-D" :: e.snatWords.tail ∈ parseOverlaySnatRules chain) := by
  refine ⟨purgesOurs_iff rules chain, fun e hid hbridge => ⟨fun r hr he => ?_, fun h => ?_⟩⟩
  · obtain ⟨d, hparse, hown⟩ := isOwned_current hid he
    have hmem : d ∈ parseSteerRules (rules.map IpRule.line) :=
      List.mem_filterMap.mpr ⟨r.line, List.mem_map_of_mem hr, hparse⟩
    exact ⟨d, List.mem_filter.mpr ⟨hmem, hown⟩, hparse⟩
  · obtain ⟨client, hbridge⟩ := hbridge
    exact List.mem_map.mpr ⟨_, List.mem_filter.mpr ⟨h, isOverlaySnat_words hbridge⟩, rfl⟩

/-- Rules of other software that are selected: for a bridge of another name, and with an attribute that
no rule of ours has. -/
theorem foreign_rules_purged :
    let words := ["-A", "POSTROUTING", "-s", "10.0.3.0/24", "-o", "br_lan", "-j", "SNAT",
      "--to-source", "192.0.2.1"]
    let rule : IpRule := { priority := 1015, source := .host 1, table := some 10101
                           selectors := [.text "iif", .text "eth0"], protocol := some 242 }
    parseOverlaySnatRules [words] = ["-D" :: words.tail] ∧
      (∀ id client, outDevice words ≠ some (bridge id client)) ∧
      ownedSteerRules [rule.line] none ≠ [] ∧ ¬Made rule := by
  refine ⟨by decide, fun id client h => ?_, by decide, ?_⟩
  · have := congrArg (fun s => s.toList.reverse.head?) (Option.some.inj h)
    cases client <;> simp [bridge] at this
  · rintro ⟨ip, id, -, -, h | h⟩ <;> simp [steerLayout] at h

end Nullnet.Client.Steering
