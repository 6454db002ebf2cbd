import Nullnet.Lib.Dict

/-! # Claims

Owners claim keys, and a key is for one owner only. `detect` goes through a list of claims, lets the
first owner of each key have it, and reports every later claim as a conflict with that owner.

The claims come from a map of groups, where `f` are the claims of one group (`claims`). In which order
they are visited decides which conflicts are reported, but not whether a group is party to one
(`detect_apart`). -/

namespace Nullnet.Lib.Claims

variable {K O G V X : Type}

structure Conflict (K O : Type) where
  key : K
  first : O
  second : O
  deriving DecidableEq

/-- None of two owners with the same key satisfies `p`. -/
def Clear (p : O → Prop) (a b : K × O) : Prop := a.1 = b.1 → ¬p a.2 ∧ ¬p b.2

theorem Clear.symm {p : O → Prop} {a b : K × O} (h : Clear p a b) : Clear p b a :=
  fun hkey => (h hkey.symm).symm

section

variable [DecidableEq K]

/-- Go through claims; `claimed` are the keys that are taken. -/
def detectFrom (claimed : Dict K O) : List (K × O) → List (Conflict K O)
  | [] => []
  | c :: l => match claimed.lookup c.1 with
    | some other => ⟨c.1, other, c.2⟩ :: detectFrom claimed l
    | none => detectFrom (claimed.insert c.1 c.2) l

def detect (l : List (K × O)) : List (Conflict K O) := detectFrom ∅ l

theorem forall_detectFrom (p : O → Prop) (l : List (K × O)) (claimed : Dict K O) :
    (∀ c ∈ detectFrom claimed l, ¬p c.first ∧ ¬p c.second) ↔
      l.Pairwise (Clear p) ∧ ∀ a ∈ l, ∀ o ∈ claimed.lookup a.1, ¬p o ∧ ¬p a.2 := by
  induction l generalizing claimed with
  | nil => simp [detectFrom]
  | cons c l ih =>
    rw [detectFrom, List.pairwise_cons, List.forall_mem_cons]
    rcases hc : claimed.lookup c.1 with - | other
    · rw [ih]
      constructor
      · rintro ⟨hl, hclaimed⟩
        refine ⟨⟨fun b hb hkey => ?_, hl⟩, nofun, fun a ha o ho => ?_⟩
        · exact hclaimed b hb c.2 (by rw [Dict.lookup_insert, if_pos hkey.symm]; rfl)
        · refine hclaimed a ha o ?_
          rw [Dict.lookup_insert, if_neg]
          · exact ho
          · intro hkey
            rw [hkey, hc] at ho
            cases ho
      · rintro ⟨⟨hc', hl⟩, -, hclaimed⟩
        refine ⟨hl, fun a ha o ho => ?_⟩
        rw [Dict.lookup_insert] at ho
        split_ifs at ho with hkey
        · cases ho
          exact hc' a ha hkey.symm
        · exact hclaimed a ha o ho
    · rw [List.forall_mem_cons, ih]
      constructor
      · rintro ⟨hself, hl, hclaimed⟩
        refine ⟨⟨fun b hb hkey => ⟨hself.2, (hclaimed b hb other (hkey ▸ hc)).2⟩, hl⟩, ?_, hclaimed⟩
        intro o ho
        cases ho
        exact hself
      · rintro ⟨⟨-, hl⟩, hself, hclaimed⟩
        exact ⟨hself other rfl, hl, hclaimed⟩

theorem forall_detect (p : O → Prop) (l : List (K × O)) :
    (∀ c ∈ detect l, ¬p c.first ∧ ¬p c.second) ↔ l.Pairwise (Clear p) := by
  rw [detect, forall_detectFrom]
  exact and_iff_left nofun

end

/-! ## Claims of groups -/

variable [DecidableEq G]

def claims (f : V → List (K × X)) (m : Dict G V) : List (K × (G × X)) :=
  m.entries.flatMap fun e => (f e.2).map fun c => (c.1, (e.1, c.2))

def claimed (f : V → List (K × X)) (m : Dict G V) (g : G) : List K :=
  (m.lookup g).elim [] fun v => (f v).map Prod.fst

/-- The group `g` claims no key twice, and no key that another group claims. -/
def Apart (f : V → List (K × X)) (m : Dict G V) (g : G) : Prop :=
  (claimed f m g).Nodup ∧ ∀ g' ≠ g, (claimed f m g).Disjoint (claimed f m g')

variable {f : V → List (K × X)} {m : Dict G V} {p : G → Prop} {l : List (K × (G × X))}

theorem mem_claimed {g : G} {k : K} :
    k ∈ claimed f m g ↔ ∃ v, m.lookup g = some v ∧ ∃ c ∈ f v, c.1 = k := by
  unfold claimed
  rcases m.lookup g with - | v
  · simp
  · simp [List.mem_map]

/-- A group is apart if nobody else claims one of its keys, where `C` says which member of a group claims a
key. -/
theorem apart_iff {I : Type} {C : G → I → K → Prop} {g : G}
    (hmem : ∀ g k, k ∈ claimed f m g ↔ ∃ i, C g i k)
    (hself : (claimed f m g).Nodup ↔ ∀ k i i', C g i k → C g i' k → i' = i) :
    Apart f m g ↔ ∀ k i g' i', C g i k → C g' i' k → (g', i') = (g, i) := by
  constructor
  · rintro ⟨hnodup, hother⟩ k i g' i' h h'
    by_cases hg : g' = g
    · subst hg
      rw [hself.mp hnodup k i i' h h']
    · exact absurd ((hmem g' k).mpr ⟨i', h'⟩) (hother g' hg ((hmem g k).mpr ⟨i, h⟩))
  · intro h
    refine ⟨hself.mpr fun k i i' hi hi' => congrArg Prod.snd (h k i g i' hi hi'), ?_⟩
    intro g' hg' k hk hk'
    obtain ⟨i, hi⟩ := (hmem g k).mp hk
    obtain ⟨i', hi'⟩ := (hmem g' k).mp hk'
    exact hg' (congrArg Prod.fst (h k i g' i' hi hi'))

/-- The claims are clear if the groups in question are apart from the others. -/
theorem pairwise_claims (p : G → Prop) :
    (claims f m).Pairwise (Clear fun o => p o.1) ↔ ∀ g, p g → Apart f m g := by
  have hsymm : Std.Symm fun e e' : Σ _ : G, V =>
      ∀ a ∈ (f e.2).map fun c => (c.1, (e.1, c.2)), ∀ b ∈ (f e'.2).map fun c => (c.1, (e'.1, c.2)),
        Clear (fun o : G × X => p o.1) a b :=
    ⟨fun e e' h a ha b hb => (h b hb a ha).symm⟩
  have hne : m.entries.Pairwise fun e e' => e.1 ≠ e'.1 := List.nodupKeys_iff_pairwise.mp m.nodupKeys
  rw [claims, List.pairwise_flatMap]
  constructor
  · rintro ⟨hself, hother⟩ g hg
    constructor
    · rcases hv : m.lookup g with - | v
      · rw [claimed, hv]
        exact List.nodup_nil
      · rw [claimed, hv]
        refine List.pairwise_map.mpr
          ((List.pairwise_map.mp (hself ⟨g, v⟩ (Dict.mem_of_lookup hv))).imp ?_)
        exact fun h hkey => (h hkey).1 hg
    · intro g' hg' k hk hk'
      obtain ⟨v, hv, a, ha, rfl⟩ := mem_claimed.mp hk
      obtain ⟨v', hv', b, hb, hkey⟩ := mem_claimed.mp hk'
      refine (hother.forall (Dict.mem_of_lookup hv) (Dict.mem_of_lookup hv') (fun h => hg' ?_)
        _ (List.mem_map_of_mem ha) _ (List.mem_map_of_mem hb) hkey.symm).1 hg
      exact (congrArg Sigma.fst h).symm
  · intro h
    constructor
    · rintro ⟨g, v⟩ hm
      refine List.pairwise_map.mpr ?_
      by_cases hg : p g
      · have hself := (h g hg).1
        rw [claimed, Dict.lookup_eq_some.mpr hm] at hself
        exact (List.pairwise_map.mp hself).imp fun hne hkey => absurd hkey hne
      · exact List.pairwise_of_forall fun a b _ => ⟨hg, hg⟩
    · refine hne.imp_of_mem ?_
      rintro ⟨g, v⟩ ⟨g', v'⟩ hm hm' hne a ha b hb hkey
      obtain ⟨c, hc, rfl⟩ := List.mem_map.mp ha
      obtain ⟨c', hc', rfl⟩ := List.mem_map.mp hb
      have hk : c.1 ∈ claimed f m g := mem_claimed.mpr ⟨v, Dict.lookup_eq_some.mpr hm, c, hc, rfl⟩
      have hk' : c.1 ∈ claimed f m g' :=
        mem_claimed.mpr ⟨v', Dict.lookup_eq_some.mpr hm', c', hc', hkey.symm⟩
      exact ⟨fun hg => (h g hg).2 g' (Ne.symm hne) hk hk', fun hg => (h g' hg).2 g hne hk' hk⟩

variable [DecidableEq K]

/-- **A group is party to a conflict** unless it is apart from the others, in whatever order the claims
are visited. -/
theorem detect_apart (p : G → Prop) (hl : l.Perm (claims f m)) :
    (∀ c ∈ detect l, ¬p c.first.1 ∧ ¬p c.second.1) ↔ ∀ g, p g → Apart f m g := by
  rw [← pairwise_claims p, ← hl.pairwise_iff fun h => h.symm]
  exact forall_detect (fun o => p o.1) l

end Nullnet.Lib.Claims
