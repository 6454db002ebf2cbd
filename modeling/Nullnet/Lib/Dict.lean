import Mathlib.Data.List.AList
import Mathlib.Data.List.Perm.Basic

/-! # Finite maps as association lists

A hash map is modelled by Mathlib's `AList`: a list of entries without a repeated key, so that the
map carries its own well-formedness and can be iterated. This file adds what `AList` does not have:
an update of the value stored under a key (`modify`), a filter (`retain`), an insertion at the back
(`push`, for a vector whose elements have distinct keys), and for each of them what `lookup` sees
afterwards. -/

namespace Nullnet.Lib

/-- A finite map. -/
abbrev Dict (K V : Type) : Type := AList fun _ : K => V

namespace Dict

variable {K V : Type} {m : Dict K V}

/-! ## Entries -/

/-- The values, in the order of the entries. -/
def values (m : Dict K V) : List V := m.entries.map Sigma.snd

theorem entries_inj {k : K} {v w : V} (hv : ⟨k, v⟩ ∈ m.entries) (hw : ⟨k, w⟩ ∈ m.entries) : v = w :=
  m.nodupKeys.eq_of_mk_mem hv hw

/-! ## Filtering -/

/-- Keep the entries that satisfy `p`. -/
def retain (p : K → V → Bool) (m : Dict K V) : Dict K V :=
  ⟨m.entries.filter fun e => p e.1 e.2, m.nodupKeys.sublist List.filter_sublist⟩

theorem mem_retain {p : K → V → Bool} {e : Σ _ : K, V} :
    e ∈ (retain p m).entries ↔ e ∈ m.entries ∧ p e.1 e.2 := by
  simp [retain, List.mem_filter]

/-! ## Inserting at the back -/

section

variable [DecidableEq K] {k : K} {v w : V} {m m' : Dict K V} {p : K → V → Bool} {a : K} {f : V → V}
  {A W α κ : Type} {l1 l2 : List (Σ _ : K, V)} {l l' : List α} {key : α → κ}

/-- Append an entry; a map that has the key already is left alone. -/
def push (k : K) (v : V) (m : Dict K V) : Dict K V :=
  if h : k ∈ m then m else
    ⟨m.entries ++ [⟨k, v⟩], by
      have hk : ∀ w, (⟨k, w⟩ : Σ _ : K, V) ∉ m.entries := List.notMem_keys.mp h
      refine List.nodupKeys_iff_pairwise.mpr (List.pairwise_append.mpr
        ⟨List.nodupKeys_iff_pairwise.mp m.nodupKeys, List.pairwise_singleton _ _, ?_⟩)
      rintro ⟨a, b⟩ ha ⟨a', b'⟩ ha' rfl
      obtain ⟨rfl, -⟩ := Sigma.mk.inj_iff.mp (List.mem_singleton.mp ha')
      exact hk b ha⟩

theorem mem_push (h : k ∉ m) {e : Σ _ : K, V} :
    e ∈ (push k v m).entries ↔ e ∈ m.entries ∨ e = ⟨k, v⟩ := by
  unfold push
  rw [dif_neg h]
  simp

theorem lookup_eq_some : m.lookup k = some v ↔ ⟨k, v⟩ ∈ m.entries := by
  rw [← AList.mem_lookup_iff]; exact Iff.rfl

theorem mem_of_lookup (h : m.lookup k = some v) : ⟨k, v⟩ ∈ m.entries := lookup_eq_some.mp h

theorem lookup_push_self (h : k ∉ m) : (push k v m).lookup k = some v :=
  lookup_eq_some.mpr ((mem_push h).mpr (Or.inr rfl))

theorem lookup_push_ne (hne : a ≠ k) : (push k v m).lookup a = m.lookup a := by
  by_cases h : k ∈ m
  · unfold push; rw [dif_pos h]
  · refine Option.ext fun w => ?_
    rw [lookup_eq_some, lookup_eq_some, mem_push h]
    constructor
    · rintro (h | h)
      · exact h
      · exact absurd (Sigma.mk.inj_iff.mp h).1 hne
    · exact Or.inl

theorem lookup_retain : (retain p m).lookup k = (m.lookup k).filter (p k) := by
  refine Option.ext fun w => ?_
  rw [lookup_eq_some, mem_retain, ← lookup_eq_some, Option.filter_eq_some_iff]

/-! ## Searching -/

/-- The first key whose entry satisfies `p`. -/
def first (p : K → V → Bool) (m : Dict K V) : Option K :=
  (m.entries.find? fun e => p e.1 e.2).map Sigma.fst

theorem first_eq_some (h : first p m = some k) : ∃ v, m.lookup k = some v ∧ p k v := by
  obtain ⟨⟨k', v⟩, he, rfl⟩ := Option.map_eq_some_iff.mp h
  exact ⟨v, lookup_eq_some.mpr (List.mem_of_find?_eq_some he), by simpa using List.find?_some he⟩

theorem first_eq_none : first p m = none ↔ ∀ k v, m.lookup k = some v → p k v = false := by
  simp only [first, Option.map_eq_none_iff, List.find?_eq_none, Sigma.forall, lookup_eq_some,
    Bool.not_eq_true]

theorem first_of_imp {q : K → V → Bool} (himp : ∀ k v, q k v → p k v) (h : first p m = some k)
    (hv : m.lookup k = some v) (hq : q k v) : first q m = some k := by
  obtain ⟨⟨k', v'⟩, he, rfl⟩ := Option.map_eq_some_iff.mp h
  obtain rfl : v' = v := by
    have := lookup_eq_some.mpr (List.mem_of_find?_eq_some he)
    exact Option.some.inj (this.symm.trans hv)
  obtain ⟨-, as, bs, hl, has⟩ := List.find?_eq_some_iff_append.mp he
  refine Option.map_eq_some_iff.mpr ⟨⟨k', v'⟩, ?_, rfl⟩
  refine List.find?_eq_some_iff_append.mpr ⟨hq, as, bs, hl, fun a ha => ?_⟩
  have hpa := has a ha
  rw [Bool.not_eq_true'] at hpa ⊢
  rw [Bool.eq_false_iff] at hpa ⊢
  exact fun hqa => hpa (himp _ _ hqa)

/-- The keys whose entries satisfy `p`. -/
def keysWith (p : K → V → Bool) (m : Dict K V) : List K :=
  (m.entries.filter fun e => p e.1 e.2).map Sigma.fst

theorem mem_keysWith : k ∈ keysWith p m ↔ ∃ v, m.lookup k = some v ∧ p k v := by
  simp only [keysWith, List.mem_map, List.mem_filter, Sigma.exists, exists_and_right, exists_eq_right,
    lookup_eq_some]

/-! ## Updating a value -/

/-- Update the value stored under `k`, if there is one, in place. -/
def modify (k : K) (f : V → V) (m : Dict K V) : Dict K V :=
  ⟨m.entries.map fun e => if e.1 = k then ⟨e.1, f e.2⟩ else e, by
    have : (m.entries.map fun e : Σ _ : K, V =>
        if e.1 = k then (⟨e.1, f e.2⟩ : Σ _ : K, V) else e).keys = m.entries.keys := by
      simp only [List.keys, List.map_map]
      refine List.map_congr_left fun e _ => ?_
      simp only [Function.comp_apply]
      split_ifs <;> rfl
    unfold List.NodupKeys
    rw [this]
    exact m.nodupKeys⟩

theorem lookup_modify_self (k : K) (f : V → V) (m : Dict K V) :
    (modify k f m).lookup k = (m.lookup k).map f := by
  refine Option.ext fun w => ?_
  rw [lookup_eq_some, Option.map_eq_some_iff]
  simp only [modify, List.mem_map]
  constructor
  · rintro ⟨⟨a, v⟩, hm, he⟩
    split_ifs at he with ha
    · obtain ⟨rfl, h⟩ := Sigma.mk.inj_iff.mp he
      exact ⟨v, lookup_eq_some.mpr hm, eq_of_heq h⟩
    · exact absurd (Sigma.mk.inj_iff.mp he).1 ha
  · rintro ⟨v, hv, rfl⟩
    exact ⟨⟨k, v⟩, mem_of_lookup hv, by simp⟩

theorem lookup_modify_ne (h : a ≠ k) (f : V → V) (m : Dict K V) :
    (modify k f m).lookup a = m.lookup a := by
  refine Option.ext fun w => ?_
  rw [lookup_eq_some, lookup_eq_some]
  simp only [modify, List.mem_map]
  constructor
  · rintro ⟨⟨b, v⟩, hm, he⟩
    split_ifs at he with hb
    · obtain ⟨rfl, -⟩ := Sigma.mk.inj_iff.mp he
      exact absurd hb h
    · rw [← he]; exact hm
  · intro hm
    exact ⟨⟨a, w⟩, hm, by rw [if_neg h]⟩

theorem lookup_modify (k a : K) (f : V → V) (m : Dict K V) :
    (modify k f m).lookup a = if a = k then (m.lookup a).map f else m.lookup a := by
  split_ifs with h
  · rw [h, lookup_modify_self]
  · exact lookup_modify_ne h f m

theorem modify_congr {g : V → V}
    (h : ∀ v, m.lookup k = some v → f v = g v) : modify k f m = modify k g m := by
  refine AList.ext (List.map_congr_left fun e he => ?_)
  split_ifs with hk
  · rw [h e.2 (lookup_eq_some.mpr (hk ▸ he))]
  · rfl

theorem modify_eq_self (h : ∀ v, m.lookup k = some v → f v = v) : modify k f m = m := by
  refine AList.ext ?_
  conv_rhs => rw [← List.map_id m.entries]
  refine List.map_congr_left fun e he => ?_
  split_ifs with hk
  · rw [h e.2 (lookup_eq_some.mpr (hk ▸ he))]; rfl
  · rfl

theorem keys_modify (k : K) (f : V → V) (m : Dict K V) : (modify k f m).keys = m.keys := by
  simp only [AList.keys, modify, List.keys, List.map_map]
  refine List.map_congr_left fun e _ => ?_
  simp only [Function.comp_apply]
  split_ifs <;> rfl

theorem lookup_insert (k a : K) (v : V) (m : Dict K V) :
    (m.insert k v).lookup a = if a = k then some v else m.lookup a := by
  split_ifs with h
  · rw [h, AList.lookup_insert]
  · exact AList.lookup_insert_ne h

theorem lookup_erase (k a : K) (m : Dict K V) :
    (m.erase k).lookup a = if a = k then none else m.lookup a := by
  split_ifs with h
  · rw [h, AList.lookup_erase]
  · exact AList.lookup_erase_ne h

section

variable {k a : K} {v w : V} {m : Dict K V} {f : V → V}

theorem of_lookup_insert (h : (m.insert k w).lookup a = some v) :
    a = k ∧ v = w ∨ a ≠ k ∧ m.lookup a = some v := by
  rw [lookup_insert] at h
  split_ifs at h with ha
  · exact .inl ⟨ha, (Option.some.inj h).symm⟩
  · exact .inr ⟨ha, h⟩

theorem of_lookup_erase (h : (m.erase k).lookup a = some v) : a ≠ k ∧ m.lookup a = some v := by
  rw [lookup_erase] at h
  split_ifs at h with ha
  exact ⟨ha, h⟩

theorem of_lookup_modify (h : (m.modify k f).lookup a = some v) :
    ∃ w, m.lookup a = some w ∧ (a = k ∧ v = f w ∨ a ≠ k ∧ v = w) := by
  rw [lookup_modify] at h
  split_ifs at h with ha
  · obtain ⟨w, hw, rfl⟩ := Option.map_eq_some_iff.mp h
    exact ⟨w, hw, .inl ⟨ha, rfl⟩⟩
  · exact ⟨v, h, .inr ⟨ha, rfl⟩⟩

theorem of_lookup_modify_of (hw : m.lookup k = some w) (h : (m.modify k f).lookup a = some v) :
    a = k ∧ v = f w ∨ a ≠ k ∧ m.lookup a = some v := by
  obtain ⟨w', hw', ⟨rfl, rfl⟩ | ⟨ha, rfl⟩⟩ := of_lookup_modify h
  · exact .inl ⟨rfl, by rw [Option.some.inj (hw.symm.trans hw')]⟩
  · exact .inr ⟨ha, hw'⟩

end

theorem find?_key {key : A → K} {l : List A} (hl : (l.map key).Nodup) {a : A} :
    l.find? (fun a => key a = k) = some a ↔ a ∈ l ∧ key a = k := by
  constructor
  · intro h
    exact ⟨List.mem_of_find?_eq_some h, by simpa using List.find?_some h⟩
  · rintro ⟨ha, rfl⟩
    obtain ⟨b, hb⟩ : ∃ b, l.find? (fun b => key b = key a) = some b :=
      Option.isSome_iff_exists.mp (List.find?_isSome.mpr ⟨a, ha, decide_eq_true rfl⟩)
    have hkey : key b = key a := by simpa using List.find?_some hb
    rw [hb, List.inj_on_of_nodup_map hl (List.mem_of_find?_eq_some hb) ha hkey]

def toFront (k : K) (m : Dict K V) : Dict K V :=
  match m.lookup k with
  | some v => m.insert k v
  | none => m

@[simp] theorem lookup_toFront (k a : K) (m : Dict K V) : (toFront k m).lookup a = m.lookup a := by
  unfold toFront
  rcases h : m.lookup k with - | v
  · rfl
  · by_cases ha : a = k
    · rw [ha, AList.lookup_insert, h]
    · exact AList.lookup_insert_ne ha

def mapValues {W : Type} (f : V → W) (m : Dict K V) : Dict K W :=
  ⟨m.entries.map fun e => ⟨e.1, f e.2⟩, by
    unfold List.NodupKeys List.keys
    rw [List.map_map]
    exact m.nodupKeys⟩

theorem lookup_mapValues (f : V → W) (m : Dict K V) (k : K) :
    (mapValues f m).lookup k = (m.lookup k).map f := by
  refine Option.ext fun w => ?_
  rw [lookup_eq_some, Option.map_eq_some_iff]
  simp only [mapValues, List.mem_map]
  constructor
  · rintro ⟨⟨a, v⟩, hm, he⟩
    obtain ⟨rfl, h⟩ := Sigma.mk.inj_iff.mp he
    exact ⟨v, lookup_eq_some.mpr hm, eq_of_heq h⟩
  · rintro ⟨v, hv, rfl⟩
    exact ⟨⟨k, v⟩, mem_of_lookup hv, rfl⟩

/-- Maps with the same values, as far as `f` sees them, have the same entries. -/
theorem perm_of_lookup {f : V → W} (h : ∀ k, (m.lookup k).map f = (m'.lookup k).map f) :
    (m.entries.map fun e => (e.1, f e.2)).Perm (m'.entries.map fun e => (e.1, f e.2)) := by
  have hnodup : ∀ m : Dict K V, (m.entries.map fun e => (e.1, f e.2)).Nodup := by
    intro m
    refine List.Nodup.of_map Prod.fst ?_
    rw [List.map_map]
    exact m.nodupKeys
  have hmem : ∀ (m : Dict K V) (x : K × W),
      (x ∈ m.entries.map fun e => (e.1, f e.2)) ↔ (m.lookup x.1).map f = some x.2 := by
    rintro m ⟨k, w⟩
    simp only [List.mem_map, Option.map_eq_some_iff, lookup_eq_some, Prod.mk.injEq, Sigma.exists]
    exact ⟨fun ⟨_, v, hv, rfl, hw⟩ => ⟨v, hv, hw⟩, fun ⟨v, hv, hw⟩ => ⟨k, v, hv, rfl, hw⟩⟩
  refine (List.perm_ext_iff_of_nodup (hnodup m) (hnodup m')).mpr fun x => ?_
  rw [hmem, hmem, h]

/-! ## The entries around a key -/

theorem entries_split (h : m.lookup k = some v) :
    ∃ l1 l2 : List (Σ _ : K, V), m.entries = l1 ++ ⟨k, v⟩ :: l2 ∧
      (∀ e ∈ l1, e.1 ≠ k) ∧ ∀ e ∈ l2, e.1 ≠ k := by
  obtain ⟨l1, l2, hl⟩ := List.append_of_mem (mem_of_lookup h)
  have hnd : m.entries.Pairwise fun a b => a.1 ≠ b.1 := List.nodupKeys_iff_pairwise.mp m.nodupKeys
  rw [hl, List.pairwise_append, List.pairwise_cons] at hnd
  obtain ⟨-, ⟨h2, -⟩, h1⟩ := hnd
  exact ⟨l1, l2, hl, fun e he => h1 e he _ List.mem_cons_self, fun e he => (h2 e he).symm⟩

theorem modify_entries (f : V → V)
    (h : m.entries = l1 ++ ⟨k, v⟩ :: l2) (h1 : ∀ e ∈ l1, e.1 ≠ k) (h2 : ∀ e ∈ l2, e.1 ≠ k) :
    (modify k f m).entries = l1 ++ ⟨k, f v⟩ :: l2 := by
  have hid : ∀ l : List (Σ _ : K, V), (∀ e ∈ l, e.1 ≠ k) →
      (l.map fun e => if e.1 = k then (⟨e.1, f e.2⟩ : Σ _ : K, V) else e) = l := by
    intro l hl
    conv_rhs => rw [← List.map_id l]
    exact List.map_congr_left fun e he => if_neg (hl e he)
  simp only [modify, h, List.map_append, List.map_cons, if_true, hid l1 h1, hid l2 h2]

theorem modify_of_notMem (f : V → V) (h : m.lookup k = none) : modify k f m = m :=
  modify_eq_self fun v hv => by rw [h] at hv; cases hv

theorem erase_entries (h : m.entries = l1 ++ ⟨k, v⟩ :: l2)
    (h1 : ∀ e ∈ l1, e.1 ≠ k) : (m.erase k).entries = l1 ++ l2 := by
  have hk : k ∉ List.keys l1 := by
    rw [List.mem_keys]
    rintro ⟨w, hw⟩
    exact h1 _ hw rfl
  change List.kerase k m.entries = l1 ++ l2
  have hc : List.kerase k (⟨k, v⟩ :: l2) = l2 := by simp [List.kerase]
  rw [h, List.kerase_append_right hk, hc]

theorem filter_erase (p : (Σ _ : K, V) → Bool) (h : ∀ v, m.lookup k = some v → p ⟨k, v⟩ = false) :
    (m.erase k).entries.filter p = m.entries.filter p := by
  rcases hl : m.lookup k with - | v
  · have hk : k ∉ m.entries.keys := fun hm => by
      have := AList.lookup_isSome.mpr (AList.mem_keys.mpr hm)
      simp [hl] at this
    change (List.kerase k m.entries).filter p = m.entries.filter p
    rw [List.kerase_of_notMem_keys hk]
  · obtain ⟨l1, l2, he, h1, -⟩ := entries_split hl
    simp [erase_entries he h1, he, List.filter_append, h v hl]

/-! ## Counting -/

theorem countP_insert {p r : (Σ _ : K, V) → Bool}
    (h : m.lookup k = some v) (hp : ∀ e : Σ _ : K, V, e.1 ≠ k → r e = p e) :
    (m.insert k w).entries.countP r + (if p ⟨k, v⟩ then 1 else 0) =
      m.entries.countP p + if r ⟨k, w⟩ then 1 else 0 := by
  obtain ⟨l1, l2, hl, h1, h2⟩ := entries_split h
  have hins : (m.insert k w).entries = ⟨k, w⟩ :: (l1 ++ l2) :=
    congrArg (List.cons _) (erase_entries hl h1)
  have hc : ∀ l : List (Σ _ : K, V), (∀ e ∈ l, e.1 ≠ k) → l.countP r = l.countP p :=
    fun l hl => List.countP_congr fun e he => by rw [hp e (hl e he)]
  rw [hins, hl, List.countP_cons, List.countP_append, List.countP_append, List.countP_cons,
    hc l1 h1, hc l2 h2]
  omega

theorem countP_insert_none (p : (Σ _ : K, V) → Bool) (h : m.lookup k = none) :
    (m.insert k w).entries.countP p = m.entries.countP p + if p ⟨k, w⟩ then 1 else 0 := by
  have hk : k ∉ m.entries.keys := fun hm => by
    have := AList.lookup_isSome.mpr (AList.mem_keys.mpr hm)
    simp [h] at this
  have hins : (m.insert k w).entries = ⟨k, w⟩ :: m.entries :=
    congrArg (List.cons _) (List.kerase_of_notMem_keys hk)
  rw [hins, List.countP_cons]

theorem countP_insert_new {p : (Σ _ : K, V) → Bool} (h : m.lookup k = none) (hp : p ⟨k, w⟩ = false) :
    (m.insert k w).entries.countP p = m.entries.countP p := by
  rw [countP_insert_none p h, hp]
  rfl

theorem countP_erase (p : (Σ _ : K, V) → Bool) (h : m.lookup k = some v) :
    (m.erase k).entries.countP p + (if p ⟨k, v⟩ then 1 else 0) = m.entries.countP p := by
  obtain ⟨l1, l2, hl, h1, -⟩ := entries_split h
  rw [erase_entries hl h1, hl, List.countP_append, List.countP_append, List.countP_cons]
  omega

theorem countP_flatMap {g : (Σ _ : K, V) → List A} {p : A → Bool} (k : K)
    (h : ∀ e : Σ _ : K, V, e.1 ≠ k → (g e).countP p = 0) :
    (m.entries.flatMap g).countP p = ((m.lookup k).map fun v => (g ⟨k, v⟩).countP p).getD 0 := by
  have hzero : ∀ l : List (Σ _ : K, V), (∀ e ∈ l, e.1 ≠ k) → (l.flatMap g).countP p = 0 := by
    intro l hl
    refine List.countP_eq_zero.mpr fun a ha => ?_
    obtain ⟨e, he, ha⟩ := List.mem_flatMap.mp ha
    exact List.countP_eq_zero.mp (h e (hl e he)) a ha
  rcases hk : m.lookup k with - | v
  · refine hzero _ fun e he hek => ?_
    rw [← hek, lookup_eq_some.mpr he] at hk
    cases hk
  · obtain ⟨l1, l2, hl, h1, h2⟩ := entries_split hk
    rw [hl, List.flatMap_append, List.flatMap_cons, List.countP_append, List.countP_append,
      hzero l1 h1, hzero l2 h2, Nat.zero_add, Nat.add_zero]
    rfl

/-- The elements of a list that satisfy `p'`, apart from `extra` ones, come from elements of another
one that satisfy `p`. -/
theorem countP_le_of_keys {p p' : α → Bool} (hn : (l'.map key).Nodup) (extra : List κ)
    (h : ∀ a ∈ l', p' a → key a ∈ extra ∨ ∃ b ∈ l, p b ∧ key b = key a) :
    l'.countP p' ≤ extra.length + l.countP p := by
  have hsub : (l'.filter p').map key ⊆ extra ++ (l.filter p).map key := by
    intro k hk
    obtain ⟨a, ha, rfl⟩ := List.mem_map.mp hk
    obtain ⟨ha, hp⟩ := List.mem_filter.mp ha
    rcases h a ha hp with hx | ⟨b, hb, hpb, he⟩
    · exact List.mem_append_left _ hx
    · exact List.mem_append_right _ (List.mem_map.mpr ⟨b, List.mem_filter.mpr ⟨hb, hpb⟩, he⟩)
  have hnd : ((l'.filter p').map key).Nodup := hn.sublist (List.filter_sublist.map key)
  have := (List.subperm_of_subset hnd hsub).length_le
  simpa [List.countP_eq_length_filter] using this

theorem countP_lt_of_keys {p p' : α → Bool}
    (hn : (l'.map key).Nodup) {b0 : α} (hb0 : b0 ∈ l) (hp0 : p b0)
    (h : ∀ a ∈ l', p' a → key a ≠ key b0 ∧ ∃ b ∈ l, p b ∧ key b = key a) :
    l'.countP p' < l.countP p := by
  have hsub : key b0 :: (l'.filter p').map key ⊆ (l.filter p).map key := by
    intro k hk
    rcases List.mem_cons.mp hk with rfl | hk
    · exact List.mem_map.mpr ⟨b0, List.mem_filter.mpr ⟨hb0, hp0⟩, rfl⟩
    · obtain ⟨a, ha, rfl⟩ := List.mem_map.mp hk
      obtain ⟨ha, hp⟩ := List.mem_filter.mp ha
      obtain ⟨-, b, hb, hpb, he⟩ := h a ha hp
      exact List.mem_map.mpr ⟨b, List.mem_filter.mpr ⟨hb, hpb⟩, he⟩
  have hnd : (key b0 :: (l'.filter p').map key).Nodup := by
    refine List.nodup_cons.mpr ⟨fun hm => ?_, hn.sublist (List.filter_sublist.map key)⟩
    obtain ⟨a, ha, he⟩ := List.mem_map.mp hm
    obtain ⟨ha, hp⟩ := List.mem_filter.mp ha
    exact (h a ha hp).1 he
  have := (List.subperm_of_subset hnd hsub).length_le
  rw [List.length_cons, List.length_map, List.length_map, ← List.countP_eq_length_filter,
    ← List.countP_eq_length_filter] at this
  exact this

theorem countP_le {p p' : V → Bool} (extra : List K)
    (h : ∀ k v', m'.lookup k = some v' → p' v' → k ∈ extra ∨ ∃ v, m.lookup k = some v ∧ p v) :
    (m'.entries.countP fun e => p' e.2) ≤ extra.length + m.entries.countP fun e => p e.2 := by
  refine countP_le_of_keys m'.nodupKeys extra ?_
  rintro ⟨k, v'⟩ hm hp
  rcases h k v' (lookup_eq_some.mpr hm) hp with hx | ⟨v, hv, hpv⟩
  · exact .inl hx
  · exact .inr ⟨⟨k, v⟩, mem_of_lookup hv, hpv, rfl⟩

theorem countP_lt {p p' : V → Bool} {k0 : K} {v0 : V} (h0 : m.lookup k0 = some v0) (hp0 : p v0)
    (h : ∀ k v', m'.lookup k = some v' → p' v' → k ≠ k0 ∧ ∃ v, m.lookup k = some v ∧ p v) :
    (m'.entries.countP fun e => p' e.2) < m.entries.countP fun e => p e.2 := by
  refine countP_lt_of_keys m'.nodupKeys (mem_of_lookup h0) hp0 ?_
  rintro ⟨k, v'⟩ hm hp
  obtain ⟨hne, v, hv, hpv⟩ := h k v' (lookup_eq_some.mpr hm) hp
  exact ⟨hne, ⟨k, v⟩, mem_of_lookup hv, hpv, rfl⟩

end

end Dict

end Nullnet.Lib
