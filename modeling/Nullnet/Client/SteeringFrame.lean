import Nullnet.Client.Steering

/-! # Steering one edge beside another

Two edges are independent if they differ in the container's address and in the network: whatever
becomes of its commands, steering one leaves what is installed for the other in place
(`wp_of_apart`). The rules for internal destinations belong to an address, not to an edge, and the
routes of a table to a network. So nothing less is enough: a removal for an edge destroys what is
installed for another one that shares either (`not_installed_of_shared`). A setup does the same before
it starts. -/

namespace Nullnet.Client.Steering

open Nullnet.Lib
open Nullnet.Server (Ipv4Addr)

/-! ## Edges that are apart -/

/-- Different containers, and different networks. -/
def Apart (e f : Edge) : Prop := e.containerIp ≠ f.containerIp ∧ e.netId ≠ f.netId

/-- What is deleted belongs to the container, and is a bypass or belongs to the network. -/
def Owns (e : Edge) (d : SteerRule) : Prop :=
  d.source = e.containerIp ∧ (d.isBypass = true ∨ steerId d = some e.netId)

variable {e f : Edge} {d : SteerRule} {α : Type} {t : Tables}

theorem owns_of_isOwned {legacy : List (ℕ × Ipv4Addr)}
    (h : isOwned legacy (some (e.netId, e.containerIp)) d) : Owns e d := by
  rw [isOwned] at h
  rcases eq_or_ne e.containerIp d.source with hsource | hsource
  · refine ⟨hsource.symm, or_iff_not_imp_left.mpr fun hbypass => ?_⟩
    by_cases hproto : d.protocol = some (.number STEER_PROTOCOL)
    · simpa [hsource, hproto, hbypass, Option.any_eq_true] using h
    · simp only [hsource, hproto, hbypass, Option.any_some, ne_eq, not_true_eq_false, decide_false,
        if_false, Bool.false_eq_true, List.any_eq_true] at h
      obtain ⟨l, -, hl⟩ := h
      split_ifs at hl with hother
      have hid : l.1 = e.netId := not_not.mp fun hne => hother (.inr (decide_eq_true hne))
      exact hid ▸ of_decide_eq_true hl
  · simp [hsource] at h

theorem owns_of_mem {out : List (ℕ × List Word)}
    (hd : d ∈ ownedSteerRules out (some (e.netId, e.containerIp))) : Owns e d :=
  owns_of_isOwned (List.mem_filter.mp hd).2

/-- The commands that steering an edge may run. -/
def Of (e : Edge) : SteerCall → Prop
  | .deleteRule d => Owns e d
  | .replaceRoute table _ _ => table = tableFor e.netId
  | .flushTable table => table = tableFor e.netId
  | .deleteSnat snat => snat = e.snat
  | _ => True

theorem makes_each {P : SteerCall → Prop} {f : α → Steerer Bool} {l : List α}
    (h : ∀ a ∈ l, (f a).Makes P) : (each f l).Makes P := by
  induction l with
  | nil => exact Prog.makes_pure
  | cons a l ih =>
    refine Prog.makes_bind (h a List.mem_cons_self) fun ok => ?_
    exact Prog.makes_bind (ih fun b hb => h b (List.mem_cons_of_mem a hb)) fun rest =>
      Prog.makes_pure

theorem makes_removeSteer (e : Edge) : (removeSteer e).Makes (Of e) := by
  refine Prog.makes_bind (Prog.makes_perform trivial) fun reply => ?_
  cases reply with
  | none => exact Prog.makes_pure
  | some out =>
    refine Prog.makes_bind (makes_each fun d hd => ?_) fun ok1 => ?_
    · exact Prog.makes_perform (owns_of_mem hd)
    refine Prog.makes_bind (Prog.makes_perform rfl) fun ok2 => ?_
    refine Prog.makes_bind ?_ fun ok3 => Prog.makes_pure
    refine Prog.makes_bind (Prog.makes_perform rfl) fun ok => ?_
    split
    · exact Prog.makes_pure
    · exact Prog.makes_perform trivial

theorem makes_installSteer (e : Edge) : (installSteer e).Makes (Of e) := by
  refine Prog.makes_bind (makes_removeSteer e) fun ok => ?_
  split
  · exact Prog.makes_pure
  · refine Prog.makes_bind (makes_each fun r _ => Prog.makes_perform trivial) fun ok1 => ?_
    refine Prog.makes_bind (Prog.makes_perform rfl) fun ok2 => ?_
    refine Prog.makes_bind (Prog.makes_perform trivial) fun ok3 => ?_
    split
    · exact Prog.makes_bind (makes_removeSteer e) fun _ => Prog.makes_pure
    · exact Prog.makes_pure

theorem source_of_fits {r : IpRule} (h : r.fits d) : r.source = .host d.source :=
  (of_decide_eq_true h).2.1

theorem source_of_mem {r : IpRule} (hr : r ∈ e.rules) : r.source = .host e.containerIp := by
  rcases List.mem_append.mp hr with hr | hr
  · obtain ⟨x, -, rfl⟩ := List.mem_map.mp hr
    rfl
  · rw [List.mem_singleton.mp hr]
    rfl

namespace Tables

variable {t : Tables} {o : Outcome}

def effect (t : Tables) : SteerCall → Tables
  | .showRules | .snatAbsent _ => t
  | .addRule rule => t.insertRule rule
  | .deleteRule d => { t with rules := t.rules.eraseP (·.fits d) }
  | .replaceRoute table gateway dev => { t with routes := t.routes.insert table (gateway, dev) }
  | .flushTable table => { t with routes := t.routes.erase table }
  | .addSnat snat => { t with snats := t.snats ++ [snat] }
  | .deleteSnat snat => { t with snats := t.snats.erase snat }

theorem attempt_fst (t t' : Tables) (o : Outcome) :
    (t.attempt t' o).1 = t ∨ (t.attempt t' o).1 = t' := by
  unfold attempt
  split_ifs
  · exact .inr rfl
  · exact .inl rfl

theorem exec_fst (t : Tables) (c : SteerCall) (o : Outcome) :
    (t.exec c o).1 = t ∨ (t.exec c o).1 = t.effect c := by
  cases c with
  | showRules | snatAbsent => exact .inl rfl
  | replaceRoute | flushTable | addSnat => exact attempt_fst t _ o
  | addRule rule =>
    by_cases h : rule ∈ t.rules
    · exact .inl (congrArg Prod.fst (if_pos h))
    · have hexec : t.exec (.addRule rule) o = t.attempt (t.insertRule rule) o := if_neg h
      exact hexec ▸ attempt_fst t _ o
  | deleteRule d =>
    by_cases h : t.rules.any (·.fits d)
    · have hexec : t.exec (.deleteRule d) o = t.attempt (t.effect (.deleteRule d)) o := if_pos h
      exact hexec ▸ attempt_fst t _ o
    · exact .inl (congrArg Prod.fst (if_neg h))
  | deleteSnat snat =>
    by_cases h : snat ∈ t.snats
    · have hexec : t.exec (.deleteSnat snat) o = t.attempt (t.effect (.deleteSnat snat)) o := if_pos h
      exact hexec ▸ attempt_fst t _ o
    · exact .inl (congrArg Prod.fst (if_neg h))

theorem mem_insertRule {r rule : IpRule} :
    r ∈ (t.insertRule rule).rules ↔ r = rule ∨ r ∈ t.rules := by
  conv_rhs => rw [← List.takeWhile_append_dropWhile (p := fun x => x.priority ≤ rule.priority)
    (l := t.rules)]
  simp only [insertRule, List.mem_append, List.mem_cons]
  grind

section

variable {e : Edge} {c : SteerCall} (hc : Of e c)

include hc

theorem mem_rules_effect {r : IpRule} (hr : r ∈ t.rules) (hkeep : ∀ d, Owns e d → ¬ r.fits d) :
    r ∈ (t.effect c).rules := by
  cases c with
  | addRule rule => exact mem_insertRule.mpr (.inr hr)
  | deleteRule d =>
    refine (List.mem_eraseP_of_neg ?_).mpr hr
    exact hkeep d hc
  | _ => exact hr

theorem lookup_routes_effect {netId : ℕ} (h : e.netId ≠ netId) :
    (t.effect c).routes.lookup (tableFor netId) = t.routes.lookup (tableFor netId) := by
  have htable : tableFor netId ≠ tableFor e.netId := fun heq => h (Nat.add_left_cancel heq).symm
  cases c with
  | replaceRoute table gateway dev =>
    obtain rfl : table = tableFor e.netId := hc
    exact (Dict.lookup_insert ..).trans (if_neg htable)
  | flushTable table =>
    obtain rfl : table = tableFor e.netId := hc
    exact (Dict.lookup_erase ..).trans (if_neg htable)
  | _ => rfl

theorem mem_snats_effect {snat : Snat} (hmem : snat ∈ t.snats) (h : snat ≠ e.snat) :
    snat ∈ (t.effect c).snats := by
  cases c with
  | addSnat => exact List.mem_append_left _ hmem
  | deleteSnat snat' =>
    obtain rfl : snat' = e.snat := hc
    exact (List.mem_erase_of_ne h).mpr hmem
  | _ => exact hmem

/-- **A command for one edge leaves what is installed for another one in place.** -/
theorem Installed.effect {f : Edge} (hf : t.Installed f) (h : Apart e f) :
    (t.effect c).Installed f where
  rules r hr := mem_rules_effect hc (hf.rules r hr) fun _ hd hfits => h.1 <| hd.1.symm.trans
    (Source.host.inj ((source_of_mem hr).symm.trans (source_of_fits hfits))).symm
  route := (lookup_routes_effect hc h.2).trans hf.route
  snat := mem_snats_effect hc hf.snat fun heq => h.1 (congrArg Snat.source heq).symm

end

end Tables

theorem makes_prog (e : Edge) : (op : SteerOp) → (op.prog e).Makes (Of e)
  | .install => makes_installSteer e
  | .remove => makes_removeSteer e

/-- **Steering one edge leaves what is installed for an edge that is apart from it in place**,
whatever becomes of the commands. -/
theorem wp_of_apart (h : Apart e f) (hf : t.Installed f) (op : SteerOp) :
    (op.prog e).wp Tables.exec (fun _ t' => t'.Installed f) t := by
  refine Prog.wp_of_makes (fun t c o hc ht => ?_) (makes_prog e op) hf
  rcases t.exec_fst c o with heq | heq
  · rwa [heq]
  · exact heq ▸ ht.effect hc h

/-! ## Edges that share something -/

theorem countP_eraseP_self (p : α → Bool) (l : List α) :
    (l.eraseP p).countP p = l.countP p - 1 := by
  induction l with
  | nil => rfl
  | cons a l ih =>
    by_cases h : p a
    · simp [h]
    · simp [h, ih]

theorem countP_foldl_eraseP (ds : List SteerRule) (rules : List IpRule) (d : SteerRule) :
    (ds.foldl (fun rules d => rules.eraseP (·.fits d)) rules).countP (·.fits d) ≤
      rules.countP (·.fits d) - ds.count d := by
  induction ds generalizing rules with
  | nil => exact Nat.le_refl _
  | cons a ds ih =>
    refine (ih _).trans ?_
    by_cases h : a = d
    · subst h
      rw [countP_eraseP_self, List.count_cons_self]
      omega
    · rw [List.count_cons_of_ne h]
      exact Nat.sub_le_sub_right List.eraseP_sublist.countP_le _

namespace Tables

theorem exec_deleteRule (t : Tables) (d : SteerRule) :
    (t.exec (.deleteRule d) {}).1 = { t with rules := t.rules.eraseP (·.fits d) } := by
  by_cases h : t.rules.any (·.fits d)
  · exact congrArg Prod.fst (if_pos h)
  · have hnone : t.rules.eraseP (·.fits d) = t.rules :=
      List.eraseP_of_forall_not fun r hr hfits => h (List.any_eq_true.mpr ⟨r, hr, hfits⟩)
    rw [hnone]
    exact congrArg Prod.fst (if_neg h)

theorem runSame_each_deleteRule (ds : List SteerRule) (t : Tables) :
    ((each deleteRule ds).runSame exec {} t).2 =
      { t with rules := ds.foldl (fun rules d => rules.eraseP (·.fits d)) t.rules } := by
  induction ds generalizing t with
  | nil => rfl
  | cons d ds ih =>
    rw [each, Prog.runSame_bind, Prog.runSame_bind]
    change ((each deleteRule ds).runSame exec {} (t.exec (.deleteRule d) {}).1).2 = _
    rw [exec_deleteRule, ih]
    rfl

/-- After the deletions no rule for an internal destination of the container is left. -/
theorem bypass_not_mem_foldl {t : Tables} (ht : ∀ r ∈ t.rules, r.Plain) (netId : ℕ) (ip : Ipv4Addr)
    {x : String × ℕ} (hx : x ∈ INTERNAL_RANGES.zipIdx) :
    bypassRule ip x.1 x.2 ∉ (ownedSteerRules (t.rules.map IpRule.line) (some (netId, ip))).foldl
      (fun rules d => rules.eraseP (·.fits d)) t.rules := by
  set d := bypassDeletion ip x.1 x.2 with hd
  have hcount : t.rules.countP (·.fits d) ≤
      (ownedSteerRules (t.rules.map IpRule.line) (some (netId, ip))).count d := by
    have howned : ∀ legacy, isOwned legacy (some (netId, ip)) d = true := fun legacy =>
      (isOwned_bypass legacy netId ip ip hx).trans (decide_eq_true rfl)
    rw [ownedSteerRules, List.count_filter (howned _), parseSteerRules, List.filterMap_map,
      List.count_filterMap]
    refine List.countP_mono_left fun r hr hfits => ?_
    have hparse := parse_of_fits (ht r hr) (List.fst_mem_of_mem_zipIdx hx) hfits
    simp [hparse, hd]
  have hzero := countP_foldl_eraseP (ownedSteerRules (t.rules.map IpRule.line) (some (netId, ip)))
    t.rules d
  rw [Nat.sub_eq_zero_of_le hcount] at hzero
  intro hmem
  exact List.countP_eq_zero.mp (Nat.le_zero.mp hzero) _ hmem (fits_bypass ip x.1 x.2)

theorem runSame_removeSnat (snat : Snat) (t : Tables) :
    ((removeSnat snat).runSame exec {} t).2 = { t with snats := t.snats.erase snat } := by
  rw [removeSnat, Prog.runSame_bind]
  by_cases h : snat ∈ t.snats
  · have hexec : t.exec (.deleteSnat snat) {} = (t.effect (.deleteSnat snat), true) := if_pos h
    simp only [command, Prog.perform, Prog.runSame, hexec, if_true]
    rfl
  · have hexec : t.exec (.deleteSnat snat) {} = (t, false) := if_neg h
    simp only [command, Prog.perform, Prog.runSame, hexec, Bool.false_eq_true, if_false]
    rw [List.erase_of_not_mem h]
    rfl

theorem runSame_removeSteer (e : Edge) (t : Tables) : ((removeSteer e).runSame exec {} t).2 =
    { rules := (ownedSteerRules (t.rules.map IpRule.line) (some (e.netId, e.containerIp))).foldl
        (fun rules d => rules.eraseP (·.fits d)) t.rules
      routes := t.routes.erase (tableFor e.netId)
      snats := t.snats.erase e.snat } := by
  rw [removeSteer, Prog.runSame_bind]
  dsimp only [command, Prog.perform, Prog.runSame, exec]
  rw [if_pos rfl]
  rw [Prog.runSame_bind, Prog.runSame_bind, Prog.runSame_bind, runSame_each_deleteRule]
  exact runSame_removeSnat e.snat _

end Tables

theorem Tables.exec_failed (t : Tables) (c : SteerCall) : (t.exec c { ok := false }).1 = t := by
  cases c with
  | addRule | deleteRule | deleteSnat => exact (apply_ite Prod.fst ..).trans (ite_self t)
  | _ => rfl

theorem Tables.runSame_failed (p : Steerer α) (t : Tables) :
    (p.runSame Tables.exec { ok := false } t).2 = t := by
  induction p generalizing t with
  | ret a => rfl
  | call c k ih => exact (ih _ _).trans (t.exec_failed c)

/-- **After a removal for one edge, one that shares its container or its network is not in place.** -/
theorem not_installed_of_shared (h : ¬ Apart e f)
    (ht : ∀ r ∈ t.rules, r.Plain) : ¬ ((removeSteer e).runSame Tables.exec {} t).2.Installed f := by
  rw [Tables.runSame_removeSteer]
  intro hf
  rcases not_and_or.mp h with hip | hid
  · have hip : e.containerIp = f.containerIp := not_not.mp hip
    have hx : ("0.0.0.0/8", 0) ∈ INTERNAL_RANGES.zipIdx := by decide
    refine Tables.bypass_not_mem_foldl ht e.netId e.containerIp hx (hf.rules _ ?_)
    exact hip ▸ List.mem_append_left _ (List.mem_map_of_mem hx)
  · have hid : e.netId = f.netId := not_not.mp hid
    have hroute := hf.route
    rw [Dict.lookup_erase, if_pos (congrArg tableFor hid.symm)] at hroute
    cases hroute

theorem not_wp_of_shared (h : ¬ Apart e f) (ht : ∀ r ∈ t.rules, r.Plain)
    (op : SteerOp) : ¬ (op.prog e).wp Tables.exec (fun _ t' => t'.Installed f) t := by
  have hnot := not_installed_of_shared h ht
  intro hwp
  cases op with
  | remove => exact hnot (Prog.of_runSame hwp {})
  | install =>
    -- The removal succeeds, no command does after it.
    have hrest := Prog.of_runSame (Prog.wp_bind.mp hwp) {}
    have hend := Prog.of_runSame hrest { ok := false }
    rw [Tables.runSame_failed] at hend
    exact hnot hend

/-- **Steering one edge leaves all that is installed for another one in place if they differ in the
container's address and in the network, and only if**: else some course of the commands destroys it,
in all tables where no other attribute of a rule is a key of the listing. -/
theorem steering_frame (e f : Edge) (t : Tables) (hf : t.Installed f) (op : SteerOp) :
    (Apart e f → (op.prog e).wp Tables.exec (fun _ t' => t'.Installed f) t) ∧
      ((∀ r ∈ t.rules, r.Plain) → (op.prog e).wp Tables.exec (fun _ t' => t'.Installed f) t →
        Apart e f) :=
  ⟨fun h => wp_of_apart h hf op, fun ht hwp => not_not.mp fun h => not_wp_of_shared h ht op hwp⟩

def shopEdge (netId : ℕ) (containerIp : Ipv4Addr) : Edge :=
  { netId, containerIp, brDev := "br", proxyGw := 0x0a000001, snatSrc := 0x0a000002 }

def shopTables (e : Edge) : Tables :=
  { rules := e.rules
    routes := AList.insert (tableFor e.netId) (e.proxyGw, e.brDev) ∅
    snats := [e.snat] }

theorem shopTables_installed (e : Edge) : (shopTables e).Installed e :=
  ⟨fun _ hr => hr, AList.lookup_insert _, List.mem_cons_self⟩

theorem steering_frame_shop :
    (removeSteer (shopEdge 102 0xac110003)).wp Tables.exec
        (fun _ t => t.Installed (shopEdge 101 0xac110002)) (shopTables (shopEdge 101 0xac110002)) ∧
      ¬ (installSteer (shopEdge 102 0xac110002)).wp Tables.exec
        (fun _ t => t.Installed (shopEdge 101 0xac110002)) (shopTables (shopEdge 101 0xac110002)) :=
  ⟨(steering_frame _ _ _ (shopTables_installed _) .remove).1 ⟨by decide, by decide⟩, fun hwp =>
    ((steering_frame _ _ _ (shopTables_installed _) .install).2 (by decide) hwp).1 rfl⟩

/-- **An edge is set up before the teardown of the old one of its container**, and the teardown
takes the rules for internal destinations away. -/
theorem bypass_removed_with_old_edge :
    let old := shopEdge 101 0xac110002
    let new := shopEdge 102 0xac110002
    let first := (installSteer old).runSame Tables.exec {} {}
    let before := (installSteer new).runSame Tables.exec {} first.2
    let after := (removeSteer old).runSame Tables.exec {} before.2
    before.2.Installed old ∧ before.2.Installed new ∧ after.1 = true ∧
      bypassRule new.containerIp "10.0.0.0/8" 1 ∈ new.rules ∧
      bypassRule new.containerIp "10.0.0.0/8" 1 ∉ after.2.rules := by
  intro old new first before after
  refine ⟨⟨by decide +kernel, by decide +kernel, by decide +kernel⟩,
    ⟨by decide +kernel, by decide +kernel, by decide +kernel⟩, by decide +kernel, by decide +kernel,
    by decide +kernel⟩

end Nullnet.Client.Steering
