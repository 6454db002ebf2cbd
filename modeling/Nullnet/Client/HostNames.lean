import Nullnet.Client.Host

/-! # Names of live edges

An edge publishes its name with `add_host_mapping` and takes it back with `remove_host_mapping`. Several
edges may have one name; the file has the address of the last one that published it. -/

namespace Nullnet.Client

open Nullnet.Lib

/-- The names that a line gives to its address: what follows it, up to a comment. -/
def aliases (line : List String) : List String := (line.takeWhile (· ≠ "#")).tail

/-- A hosts file, and the mappings of the edges that are live. -/
structure Publications where
  file : HostsFile
  live : List HostMapping := []

inductive PublicationAction
  | add (m : HostMapping)
  | remove (m : HostMapping)

namespace Publications

def step (s : Publications) : PublicationAction → Option Publications
  | .add m => some ⟨s.file.upsert m, m :: s.live⟩
  | .remove m => if m ∈ s.live then some ⟨s.file.remove m, s.live.erase m⟩ else none

/-- The line that is written maps the name, and no line of another live name is replaced or removed. -/
def sparesOthers (s : Publications) : PublicationAction → Bool
  | .add m => m.name ∈ aliases m.entry ∧ ∀ line ∈ s.file, m.name ∈ line.tail →
      ∀ m' ∈ s.live, m'.name ∈ aliases line → m'.name = m.name
  | .remove m => ∀ line ∈ s.file, line.head? = some m.ip → m.name ∈ line.tail →
      ∀ m' ∈ s.live.erase m, m'.name ∉ aliases line

/-- The first line with the name has the address. -/
def Maps (file : HostsFile) (name ip : String) : Prop :=
  (file.find? fun line => name ∈ aliases line).bind List.head? = some ip

/-- All lines with the name have the address. -/
def Published (file : HostsFile) (m : HostMapping) : Prop :=
  (∃ line ∈ file, m.name ∈ aliases line) ∧
    ∀ line ∈ file, m.name ∈ aliases line → line.head? = some m.ip

variable {file : HostsFile} {m m' : HostMapping} {line : List String} {s s' : Publications}

theorem Published.maps (h : Published file m) : Maps file m.name m.ip := by
  obtain ⟨⟨line, hl, hm⟩, hall⟩ := h
  rcases hf : file.find? fun line => m.name ∈ aliases line with - | l
  · exact absurd (decide_eq_true hm) (List.find?_eq_none.mp hf line hl)
  · have hn := List.find?_some hf
    rw [Maps, hf, Option.bind_some]
    exact hall l (List.mem_of_find?_eq_some hf) (of_decide_eq_true hn)

theorem mem_tail_of_aliases {name : String} (h : name ∈ aliases line) : name ∈ line.tail :=
  ((List.takeWhile_sublist _).tail).subset h

theorem eq_of_mem_aliases_entry {name : String} (h : name ∈ aliases m.entry) : name = m.name := by
  unfold aliases HostMapping.entry at h
  by_cases hi : m.ip = "#" <;> by_cases hn : m.name = "#" <;> simp_all

theorem mem_upsert : line ∈ file.upsert m ↔ line = m.entry ∨ line ∈ file ∧ m.name ∉ line.tail := by
  unfold HostsFile.upsert
  split_ifs with h
  · obtain ⟨l, hl, hn⟩ := List.any_eq_true.mp h
    simp only [List.mem_map]
    constructor
    · rintro ⟨l', hl', rfl⟩
      split_ifs with hn'
      · exact .inl rfl
      · exact .inr ⟨hl', hn'⟩
    · rintro (rfl | ⟨hl', hn'⟩)
      · exact ⟨l, hl, if_pos (of_decide_eq_true hn)⟩
      · exact ⟨line, hl', if_neg hn'⟩
  · have hnone : ∀ l ∈ file, m.name ∉ l.tail := by simpa using h
    rw [List.mem_append, List.mem_singleton, or_comm]
    exact or_congr_right ⟨fun hl => ⟨hl, hnone _ hl⟩, And.left⟩

theorem mem_remove : line ∈ file.remove m ↔
    line ∈ file ∧ ¬(line.head? = some m.ip ∧ m.name ∈ line.tail) := by
  simp only [HostsFile.remove, List.mem_filter, Bool.not_eq_true', decide_eq_false_iff_not]

theorem Published.upsert (h : m.name ∈ aliases m.entry) : Published (file.upsert m) m := by
  refine ⟨⟨m.entry, mem_upsert.mpr (.inl rfl), h⟩, fun line hl hn => ?_⟩
  rcases mem_upsert.mp hl with rfl | ⟨-, ht⟩
  · rfl
  · exact absurd (mem_tail_of_aliases hn) ht

/-- Each live name is published by a live edge. -/
def Follows (s : Publications) : Prop :=
  ∀ m ∈ s.live, ∃ m' ∈ s.live, m'.name = m.name ∧ Published s.file m'

theorem Follows.add (h : Follows s) (hok : s.sparesOthers (.add m)) :
    Follows ⟨s.file.upsert m, m :: s.live⟩ := by
  obtain ⟨hown, hspare⟩ := of_decide_eq_true hok
  intro m1 hm1
  by_cases hname : m1.name = m.name
  · exact ⟨m, .head _, hname.symm, .upsert hown⟩
  · have hlive : m1 ∈ s.live := by
      rcases List.mem_cons.mp hm1 with rfl | hm
      · exact absurd rfl hname
      · exact hm
    obtain ⟨m', hm', heq, ⟨line, hl, hn⟩, hall⟩ := h m1 hlive
    have hne : m'.name ≠ m.name := heq ▸ hname
    -- the line of the other name is not replaced
    have ht : m.name ∉ line.tail := fun ht => hne (hspare line hl ht m' hm' hn)
    refine ⟨m', .tail _ hm', heq, ⟨line, mem_upsert.mpr (.inr ⟨hl, ht⟩), hn⟩, fun l hl hn => ?_⟩
    rcases mem_upsert.mp hl with rfl | ⟨hl, -⟩
    · exact absurd (eq_of_mem_aliases_entry hn) hne
    · exact hall l hl hn

theorem Follows.remove (h : Follows s) (hok : s.sparesOthers (.remove m)) :
    Follows ⟨s.file.remove m, s.live.erase m⟩ := by
  have hspare := of_decide_eq_true hok
  intro m1 hm1
  obtain ⟨m', hm', heq, ⟨line, hl, hn⟩, hall⟩ := h m1 (List.mem_of_mem_erase hm1)
  have hkeep : ¬(line.head? = some m.ip ∧ m.name ∈ line.tail) := fun ⟨hi, ht⟩ =>
    hspare line hl hi ht m1 hm1 (heq ▸ hn)
  have hne : m' ≠ m := by
    rintro rfl
    exact hkeep ⟨hall line hl hn, mem_tail_of_aliases hn⟩
  exact ⟨m', (List.mem_erase_of_ne hne).mpr hm', heq, ⟨line, mem_remove.mpr ⟨hl, hkeep⟩, hn⟩,
    fun l hl => hall l (mem_remove.mp hl).1⟩

/-- **Names follow live edges**, in a run whose calls spare the lines of other live edges. -/
theorem names_follow_edges (h : Reach Publications.step (fun s a => s.sparesOthers a) ⟨file, []⟩ s)
    (hm : m ∈ s.live) : ∃ m' ∈ s.live, m'.name = m.name ∧ Maps s.file m.name m'.ip := by
  have hinit : Follows ⟨file, []⟩ := nofun
  have hf : Follows s := h.invariant Follows hinit fun s a s' ih hok hs => by
    cases a with
    | add m => cases hs; exact ih.add hok
    | remove m =>
      obtain ⟨-, ⟨⟩⟩ := Option.ite_none_right_eq_some.mp hs
      exact ih.remove hok
  obtain ⟨m', hm', heq, hp⟩ := hf m hm
  exact ⟨m', hm', heq, heq ▸ hp.maps⟩

/-- The name moves to the second edge, and is its own until that is gone. -/
theorem names_follow_edges_db : ∃ s, Reach Publications.step (fun s a => s.sparesOthers a)
    ⟨[["127.0.0.1", "localhost"]], []⟩ s ∧ s.live = [⟨"db", "10.0.0.2"⟩] ∧
      ∃ m' ∈ s.live, m'.name = "db" ∧ Maps s.file "db" m'.ip := by
  obtain ⟨s, hs, hl⟩ : ∃ s, Reach Publications.step (fun s a => s.sparesOthers a)
      ⟨[["127.0.0.1", "localhost"]], []⟩ s ∧ s.live = [⟨"db", "10.0.0.2"⟩] :=
    exists_guarded [.add ⟨"db", "10.0.0.1"⟩, .add ⟨"db", "10.0.0.2"⟩, .remove ⟨"db", "10.0.0.1"⟩]
      (by decide +kernel)
  exact ⟨s, hs, hl, names_follow_edges hs (m := ⟨"db", "10.0.0.2"⟩) (hl ▸ .head _)⟩

/-- The second edge for a name goes first, and takes the name from the first one. -/
theorem name_lost : ∃ s, Reach Publications.step anyStep ⟨[], []⟩ s ∧
    s.live = [⟨"db", "10.0.0.1"⟩] ∧ ∀ ip, ¬Maps s.file "db" ip := by
  refine (exists_reach (P := fun s => s.live = [⟨"db", "10.0.0.1"⟩] ∧ s.file = [])
    [.add ⟨"db", "10.0.0.1"⟩, .add ⟨"db", "10.0.0.2"⟩, .remove ⟨"db", "10.0.0.2"⟩]
    (by decide +kernel)).imp fun s h => ⟨h.1, h.2.1, fun ip hm => ?_⟩
  rw [h.2.2] at hm
  cases hm

end Publications

end Nullnet.Client
