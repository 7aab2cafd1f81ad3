import Mathlib.Algebra.Ring.Nat
import Mathlib.Data.List.Sort

/-!
# Ordered maps as strictly sorted entry lists

The engine keeps its nodes, inputs and outputs in `BTreeMap`s.  Two things
about such a map are observable: what a key is bound to, and the ascending
order in which an iterator visits the keys.  A strictly sorted list of entries
has exactly these two observations, so an ordered map is modelled as the list
together with the proof that it is sorted.

**Operations.**  `get?`, `insert` (replacing an older binding), `modify`
(what `get_mut` followed by an assignment does), `mapWithKey`, `filterMap`,
`ofList` (collecting an iterator, the last binding of a key wins) and the
observers `keys` and `values`.

**Results.**
* `get?_eq_some_iff`: lookup is membership in the entry list.
* `get?_insert`, `get?_modify`, `get?_mapWithKey`, `get?_filterMap`: lookup
  after an update.
* `keys_modify`, `keys_mapWithKey`: updates that keep the key set.
* `keys_nodup`: an iterator visits every key once.
-/

namespace ScherzoCloud.Collections

universe u v w x

/-- An ordered map: entries in strictly ascending key order. -/
structure BTreeMap (κ : Type u) [LT κ] (α : Type v) where
  entries : List (κ × α)
  sorted : entries.Pairwise (fun a b => a.1 < b.1)
  deriving DecidableEq

namespace BTreeMap

variable {κ : Type u} [LinearOrder κ] {α : Type v} {β : Type w}

def empty : BTreeMap κ α := ⟨[], List.Pairwise.nil⟩

instance : Inhabited (BTreeMap κ α) := ⟨empty⟩

/-- First value bound to a key in an entry list. -/
def lookup (k : κ) : List (κ × α) → Option α
  | [] => none
  | e :: l => if e.1 = k then some e.2 else lookup k l

variable (m : BTreeMap κ α)

def get? (k : κ) : Option α := lookup k m.entries

def contains (k : κ) : Bool := (m.get? k).isSome

/-- The keys in ascending order. -/
def keys : List κ := m.entries.map Prod.fst

/-- The values in the order of their keys. -/
def values : List α := m.entries.map Prod.snd

def isEmpty : Bool := m.entries.isEmpty

def size : Nat := m.entries.length

/-- Sorted insertion, replacing an entry with the same key. -/
def insertEntry (k : κ) (a : α) : List (κ × α) → List (κ × α)
  | [] => [(k, a)]
  | e :: l =>
    if k < e.1 then (k, a) :: e :: l
    else if k = e.1 then (k, a) :: l
    else e :: insertEntry k a l

variable {l : List (κ × α)} {k : κ} {a : α}

theorem mem_insertEntry_imp {e : κ × α} (h : e ∈ insertEntry k a l) : e = (k, a) ∨ e ∈ l := by
  induction l with
  | nil => simpa [insertEntry] using h
  | cons d l ih =>
    rw [insertEntry] at h
    split_ifs at h with hlt heq
    · simpa using h
    · rcases List.mem_cons.mp h with h | h
      · exact Or.inl h
      · exact Or.inr (List.mem_cons_of_mem _ h)
    · rcases List.mem_cons.mp h with h | h
      · exact Or.inr (h ▸ List.mem_cons_self)
      · exact (ih h).imp_right (List.mem_cons_of_mem _)

theorem sorted_insertEntry (k : κ) (a : α) (hl : l.Pairwise (fun a b => a.1 < b.1)) :
    (insertEntry k a l).Pairwise (fun a b => a.1 < b.1) := by
  induction l with
  | nil => simp [insertEntry]
  | cons d l ih =>
    obtain ⟨hd, hl'⟩ := List.pairwise_cons.mp hl
    rw [insertEntry]
    split_ifs with hlt heq
    · refine List.pairwise_cons.mpr ⟨?_, hl⟩
      intro e he
      rcases List.mem_cons.mp he with rfl | he
      · exact hlt
      · exact hlt.trans (hd e he)
    · subst heq
      exact List.pairwise_cons.mpr ⟨hd, hl'⟩
    · refine List.pairwise_cons.mpr ⟨?_, ih hl'⟩
      intro e he
      rcases mem_insertEntry_imp he with rfl | he
      · exact lt_of_le_of_ne (not_lt.mp hlt) (Ne.symm heq)
      · exact hd e he

/-- Bind a key, replacing an older binding. -/
def insert (k : κ) (a : α) : BTreeMap κ α :=
  ⟨insertEntry k a m.entries, sorted_insertEntry k a m.sorted⟩

/-- Update the value of a key that is bound; other keys are untouched. -/
def modify (k : κ) (f : α → α) : BTreeMap κ α where
  entries := m.entries.map (fun e => if e.1 = k then (e.1, f e.2) else e)
  sorted := by
    refine List.pairwise_map.mpr (m.sorted.imp ?_)
    intro a b hab
    split_ifs <;> exact hab

def mapWithKey (f : κ → α → β) : BTreeMap κ β where
  entries := m.entries.map (fun e => (e.1, f e.1 e.2))
  sorted := List.pairwise_map.mpr m.sorted

/-- Keep the entries on which a partial function is defined. -/
def filterMap (f : κ → α → Option β) : BTreeMap κ β where
  entries := m.entries.filterMap (fun e => (f e.1 e.2).map (fun b => (e.1, b)))
  sorted := by
    refine List.Pairwise.filterMap _ ?_ m.sorted
    intro a b hab a' ha' b' hb'
    simp only [Option.map_eq_some_iff] at ha' hb'
    obtain ⟨_, _, rfl⟩ := ha'
    obtain ⟨_, _, rfl⟩ := hb'
    exact hab

/-- Remove the binding of a key. -/
def erase (k : κ) : BTreeMap κ α :=
  m.filterMap (fun j a => if j = k then none else some a)

/-- Collect a list of bindings; the last binding of a key wins. -/
def ofList (l : List (κ × α)) : BTreeMap κ α :=
  l.foldl (fun m e => m.insert e.1 e.2) empty

/-- Remove the least entry. -/
def popFirst : Option ((κ × α) × BTreeMap κ α) :=
  match h : m.entries with
  | [] => none
  | e :: l => some (e, ⟨l, (List.pairwise_cons.mp (h ▸ m.sorted)).2⟩)

/-- Replace every value by the result of a fallible function, in key order; the
first failure is the result. -/
def traverse {ε : Type x} (m : BTreeMap κ α) (f : κ → α → Except ε β) : Except ε (BTreeMap κ β) :=
  m.entries.foldlM (fun acc e => (f e.1 e.2).map (acc.insert e.1)) empty

section Lookup

variable {m}

theorem lookup_eq_some_iff (hl : l.Pairwise (fun a b => a.1 < b.1)) :
    lookup k l = some a ↔ (k, a) ∈ l := by
  induction l with
  | nil => simp [lookup]
  | cons d l ih =>
    obtain ⟨hd, hl'⟩ := List.pairwise_cons.mp hl
    rw [lookup]
    split_ifs with h
    · subst h
      have hnot : (d.1, a) ∉ l := fun hmem => lt_irrefl d.1 (hd (d.1, a) hmem)
      constructor
      · intro ha
        rw [← Option.some.inj ha]
        exact List.mem_cons_self
      · intro ha
        rcases List.mem_cons.mp ha with ha | ha
        · rw [← ha]
        · exact absurd ha hnot
    · have hne : (k, a) ≠ d := fun e => h (by rw [← e])
      simp [ih hl', hne]

theorem get?_eq_some_iff : m.get? k = some a ↔ (k, a) ∈ m.entries :=
  lookup_eq_some_iff m.sorted

theorem mem_keys_iff : k ∈ m.keys ↔ ∃ a, m.get? k = some a := by
  simp [keys, get?_eq_some_iff]

theorem mem_values_iff : a ∈ m.values ↔ ∃ k, m.get? k = some a := by
  simp [values, get?_eq_some_iff]

theorem contains_iff : m.contains k = true ↔ ∃ a, m.get? k = some a :=
  Option.isSome_iff_exists

variable (m)

theorem keys_nodup : m.keys.Nodup :=
  List.pairwise_map.mpr (m.sorted.imp ne_of_lt)

@[simp] theorem get?_empty (k : κ) : (empty : BTreeMap κ α).get? k = none := rfl

theorem get?_insert (k j : κ) (a : α) :
    (m.insert k a).get? j = if j = k then some a else m.get? j := by
  have key : ∀ l : List (κ × α),
      lookup j (insertEntry k a l) = if j = k then some a else lookup j l := by
    intro l
    induction l with
    | nil => simp [insertEntry, lookup, eq_comm]
    | cons d l ih =>
      rw [insertEntry]
      rcases eq_or_ne j k with rfl | hjk
      · rw [if_pos rfl] at ih ⊢
        split_ifs with hlt heq
        · simp [lookup]
        · simp [lookup]
        · rw [lookup, if_neg (Ne.symm heq), ih]
      · rw [if_neg hjk] at ih ⊢
        split_ifs with hlt heq
        · simp [lookup, Ne.symm hjk]
        · rw [lookup, lookup, if_neg (Ne.symm hjk), if_neg (heq ▸ Ne.symm hjk)]
        · rw [lookup, lookup, ih]
  exact key m.entries

@[simp] theorem keys_modify (k : κ) (f : α → α) : (m.modify k f).keys = m.keys := by
  simp only [keys, modify, List.map_map]
  refine List.map_congr_left ?_
  intro e _
  simp only [Function.comp_apply]
  split_ifs <;> rfl

theorem get?_modify (k j : κ) (f : α → α) :
    (m.modify k f).get? j = if j = k then (m.get? j).map f else m.get? j := by
  have key : ∀ l : List (κ × α),
      lookup j (l.map (fun e => if e.1 = k then (e.1, f e.2) else e)) =
        if j = k then (lookup j l).map f else lookup j l := by
    intro l
    induction l with
    | nil => simp [lookup]
    | cons d l ih =>
      rw [List.map_cons, lookup, lookup, ih]
      by_cases hd : d.1 = k <;> by_cases hj : j = k <;> by_cases hdj : d.1 = j <;> simp_all
  exact key m.entries

@[simp] theorem modify_modify (k : κ) (f g : α → α) :
    (m.modify k f).modify k g = m.modify k (fun a => g (f a)) := by
  have key : ∀ l : List (κ × α),
      (l.map (fun e => if e.1 = k then (e.1, f e.2) else e)).map
          (fun e => if e.1 = k then (e.1, g e.2) else e) =
        l.map (fun e => if e.1 = k then (e.1, g (f e.2)) else e) := by
    intro l
    rw [List.map_map]
    refine List.map_congr_left ?_
    intro e _
    by_cases h : e.1 = k <;> simp [h]
  simp only [modify, key]

@[simp] theorem keys_mapWithKey (f : κ → α → β) : (m.mapWithKey f).keys = m.keys := by
  simp [keys, mapWithKey]

@[simp] theorem get?_mapWithKey (f : κ → α → β) (k : κ) :
    (m.mapWithKey f).get? k = (m.get? k).map (f k) := by
  have key : ∀ l : List (κ × α),
      lookup k (l.map (fun e => (e.1, f e.1 e.2))) = (lookup k l).map (f k) := by
    intro l
    induction l with
    | nil => simp [lookup]
    | cons d l ih =>
      rw [List.map_cons, lookup, lookup, ih]
      by_cases hd : d.1 = k
      · simp [hd]
      · simp [hd]
  exact key m.entries

theorem get?_filterMap (f : κ → α → Option β) (k : κ) :
    (m.filterMap f).get? k = (m.get? k).bind (f k) := by
  refine Option.ext fun b => ?_
  rw [get?_eq_some_iff, Option.bind_eq_some_iff]
  simp only [filterMap, List.mem_filterMap, Option.map_eq_some_iff, get?_eq_some_iff,
    Prod.exists, Prod.mk.injEq]
  constructor
  · rintro ⟨j, a, hmem, b', hb, rfl, rfl⟩
    exact ⟨a, hmem, hb⟩
  · rintro ⟨a, hmem, hb⟩
    exact ⟨k, a, hmem, b, hb, rfl, rfl⟩

theorem get?_erase (k j : κ) : (m.erase k).get? j = if j = k then none else m.get? j := by
  rw [erase, get?_filterMap]
  split_ifs
  · cases m.get? j <;> rfl
  · cases m.get? j <;> rfl

variable {m}

/-- An update of a bound key depends only on the value it is bound to. -/
theorem modify_eq_of_get? (h : m.get? k = some a) (f : α → α) :
    m.modify k f = m.modify k (fun _ => f a) := by
  have hentry : ∀ e ∈ m.entries, (if e.1 = k then (e.1, f e.2) else e) =
      if e.1 = k then (e.1, f a) else e := by
    intro e he
    split_ifs with hk
    · have hget : m.get? k = some e.2 := get?_eq_some_iff.mpr (hk ▸ he)
      rw [h] at hget
      rw [Option.some.inj hget]
    · rfl
  simp only [modify, List.map_congr_left hentry]

theorem mapWithKey_congr {f g : κ → α → β}
    (h : ∀ k a, m.get? k = some a → f k a = g k a) : m.mapWithKey f = m.mapWithKey g := by
  have hentry : ∀ e ∈ m.entries, (e.1, f e.1 e.2) = (e.1, g e.1 e.2) :=
    fun e he => congrArg (Prod.mk e.1) (h e.1 e.2 (get?_eq_some_iff.mpr he))
  simp only [mapWithKey, List.map_congr_left hentry]

/-- Maps of the values agree when they agree on every entry. -/
theorem mapWithKey_eq_iff {f g : κ → α → β} :
    m.mapWithKey f = m.mapWithKey g ↔ ∀ e ∈ m.entries, f e.1 e.2 = g e.1 e.2 := by
  constructor
  · intro h e he
    have hget := congrArg (fun m => m.get? e.1) h
    simpa [get?_eq_some_iff.mpr he] using hget
  · intro h
    exact mapWithKey_congr fun k a ha => h (k, a) (get?_eq_some_iff.mp ha)

theorem filterMap_congr {f g : κ → α → Option β}
    (h : ∀ k a, m.get? k = some a → f k a = g k a) : m.filterMap f = m.filterMap g := by
  have hentry : ∀ e ∈ m.entries, (f e.1 e.2).map (fun b => (e.1, b)) =
      (g e.1 e.2).map (fun b => (e.1, b)) :=
    fun e he => congrArg (Option.map _) (h e.1 e.2 (get?_eq_some_iff.mpr he))
  simp only [filterMap, List.filterMap_congr hentry]

end Lookup

variable {m}

theorem get?_foldl_insert (l : List (κ × α)) (m : BTreeMap κ α) (k : κ) :
    (l.foldl (fun m e => m.insert e.1 e.2) m).get? k =
      ((l.reverse.find? (fun e => e.1 = k)).map Prod.snd).or (m.get? k) := by
  induction l generalizing m with
  | nil => simp
  | cons e l ih =>
    rw [List.foldl_cons, ih, get?_insert, List.reverse_cons, List.find?_append]
    by_cases hk : k = e.1
    · subst hk
      cases hfind : l.reverse.find? (fun d => decide (d.1 = e.1)) <;> simp
    · have hne : ¬ e.1 = k := fun h => hk h.symm
      cases hfind : l.reverse.find? (fun d => decide (d.1 = k)) <;> simp [hk, hne]

theorem mem_of_get?_ofList (h : (ofList l).get? k = some a) : (k, a) ∈ l := by
  rw [ofList, get?_foldl_insert, get?_empty, Option.or_none, Option.map_eq_some_iff] at h
  obtain ⟨e, hfind, rfl⟩ := h
  have hmem := List.mem_of_find?_eq_some hfind
  have hkey := List.find?_some hfind
  rw [decide_eq_true_eq] at hkey
  rw [← hkey]
  exact List.mem_reverse.mp hmem

theorem exists_get?_ofList (h : (k, a) ∈ l) : ∃ b, (ofList l).get? k = some b := by
  rw [ofList, get?_foldl_insert, get?_empty, Option.or_none]
  cases hfind : l.reverse.find? (fun e => decide (e.1 = k)) with
  | some e => exact ⟨e.2, rfl⟩
  | none =>
    have hnone := List.find?_eq_none.mp hfind (k, a) (List.mem_reverse.mpr h)
    simp at hnone

/-- Distinct keys are collected without loss. -/
theorem get?_ofList (hnodup : (l.map Prod.fst).Nodup) :
    (ofList l).get? k = some a ↔ (k, a) ∈ l := by
  refine ⟨mem_of_get?_ofList, fun h => ?_⟩
  obtain ⟨b, hb⟩ := exists_get?_ofList h
  have hab : (k, a) = (k, b) :=
    List.inj_on_of_nodup_map hnodup h (mem_of_get?_ofList hb) rfl
  rw [hb, (Prod.mk.inj hab).2]

/-- The least entry is an entry, and the others stay. -/
theorem popFirst_spec {m' : BTreeMap κ α} (h : m.popFirst = some ((k, a), m')) :
    m.get? k = some a ∧ ∀ j b, m'.get? j = some b ↔ m.get? j = some b ∧ j ≠ k := by
  unfold popFirst at h
  split at h
  · cases h
  · rename_i e l hentries
    cases h
    have hsorted := hentries ▸ m.sorted
    rw [List.pairwise_cons] at hsorted
    simp only [get?_eq_some_iff, hentries, List.mem_cons, Prod.mk.injEq]
    refine ⟨Or.inl trivial, fun j b => ⟨fun hmem => ?_, fun hmem => ?_⟩⟩
    · exact ⟨Or.inr hmem, (hsorted.1 _ hmem).ne'⟩
    · obtain ⟨⟨rfl, -⟩ | hmem, hne⟩ := hmem
      · exact absurd rfl hne
      · exact hmem

theorem size_le_of_keys {m' : BTreeMap κ β}
    (h : ∀ k a, m.get? k = some a → ∃ b, m'.get? k = some b) : m.size ≤ m'.size := by
  have hsub : m.keys ⊆ m'.keys := by
    intro k hk
    obtain ⟨a, ha⟩ := mem_keys_iff.mp hk
    exact mem_keys_iff.mpr (h k a ha)
  have hlength := (List.subperm_of_subset m.keys_nodup hsub).length_le
  rwa [keys, keys, List.length_map, List.length_map] at hlength

/-- Collecting distinct keys only sorts the bindings. -/
theorem entries_ofList (hnodup : (l.map Prod.fst).Nodup) : (ofList l).entries.Perm l := by
  refine (List.perm_ext_iff_of_nodup (.of_map _ (keys_nodup _)) (List.Nodup.of_map _ hnodup)).mpr ?_
  rintro ⟨k, a⟩
  rw [← get?_eq_some_iff, get?_ofList hnodup]

variable {ε : Type x} {f : κ → α → Except ε β}

theorem foldlM_insert_ok (hl : l.Pairwise (fun a b => a.1 < b.1)) {acc m' : BTreeMap κ β}
    (h : l.foldlM (fun acc e => (f e.1 e.2).map (acc.insert e.1)) acc = .ok m') (k : κ) :
    (k ∉ l.map Prod.fst → m'.get? k = acc.get? k) ∧
      ∀ a, (k, a) ∈ l → ∃ b, f k a = .ok b ∧ m'.get? k = some b := by
  induction l generalizing acc with
  | nil =>
    cases h
    simp
  | cons e l ih =>
    obtain ⟨hhead, htail⟩ := List.pairwise_cons.mp hl
    rw [List.foldlM_cons] at h
    cases hf : f e.1 e.2 with
    | error => rw [hf] at h; cases h
    | ok b =>
      rw [hf] at h
      obtain ⟨hother, hbound⟩ := ih htail h
      constructor
      · intro hk
        rw [List.map_cons, List.mem_cons, not_or] at hk
        rw [hother hk.2, get?_insert, if_neg hk.1]
      · intro a ha
        rcases List.mem_cons.mp ha with rfl | ha
        · refine ⟨b, hf, ?_⟩
          rw [hother, get?_insert, if_pos rfl]
          intro hmem
          obtain ⟨d, hd, hdk⟩ := List.mem_map.mp hmem
          exact absurd hdk (ne_of_gt (hhead d hd))
        · exact hbound a ha

/-- A successful traversal binds the same keys, each to its result. -/
theorem get?_traverse {m' : BTreeMap κ β} (h : m.traverse f = .ok m') (k : κ) :
    (m.get? k = none ∧ m'.get? k = none) ∨
      ∃ a b, m.get? k = some a ∧ f k a = .ok b ∧ m'.get? k = some b := by
  obtain ⟨hother, hbound⟩ := foldlM_insert_ok m.sorted h k
  cases hget : m.get? k with
  | none =>
    refine Or.inl ⟨rfl, ?_⟩
    rw [hother]
    · rfl
    · intro hmem
      obtain ⟨a, ha⟩ := mem_keys_iff.mp hmem
      rw [hget] at ha
      cases ha
  | some a =>
    obtain ⟨b, hb, hget'⟩ := hbound a (get?_eq_some_iff.mp hget)
    exact Or.inr ⟨a, b, rfl, hb, hget'⟩

theorem insertEntry_perm (h : lookup k l = none) (a : α) :
    (insertEntry k a l).Perm ((k, a) :: l) := by
  induction l with
  | nil => exact List.Perm.refl _
  | cons e l ih =>
    rw [lookup] at h
    split_ifs at h with hne
    rw [insertEntry]
    split_ifs with hlt heq
    · exact List.Perm.refl _
    · exact absurd heq.symm hne
    · exact ((ih h).cons e).trans (List.Perm.swap _ _ _)

/-- A sum over the values grows by the one that is inserted. -/
theorem sum_values_insert (h : m.get? k = none) (f : α → Nat) (a : α) :
    ((m.insert k a).values.map f).sum = (m.values.map f).sum + f a := by
  have hperm := ((insertEntry_perm h a).map Prod.snd).map f
  have hsum := hperm.sum_nat
  rw [List.map_cons, List.map_cons, List.sum_cons, Nat.add_comm] at hsum
  exact hsum

/-- A sum over the entries changes by the change of the updated one, also when its summand is
another one afterwards. -/
theorem sum_entries_modify (h : m.get? k = some a) (f g : κ → α → Nat)
    (hother : ∀ j x, j ≠ k → g j x = f j x) (b : α) :
    ((m.modify k (fun _ => b)).entries.map (fun e => g e.1 e.2)).sum + f k a =
      (m.entries.map (fun e => f e.1 e.2)).sum + g k b := by
  have key : ∀ l : List (κ × α), l.Pairwise (fun a b => a.1 < b.1) → (k, a) ∈ l →
      ((l.map (fun e => if e.1 = k then (e.1, b) else e)).map (fun e => g e.1 e.2)).sum + f k a =
        (l.map (fun e => f e.1 e.2)).sum + g k b := by
    intro l hl hmem
    induction l with
    | nil => cases hmem
    | cons e l ih =>
      obtain ⟨hhead, htail⟩ := List.pairwise_cons.mp hl
      simp only [List.map_cons, List.sum_cons]
      rcases List.mem_cons.mp hmem with rfl | hmem
      · have hrest : (l.map (fun e => if e.1 = k then (e.1, b) else e)).map
            (fun e => g e.1 e.2) = l.map (fun e => f e.1 e.2) := by
          rw [List.map_map]
          refine List.map_congr_left fun e he => ?_
          have hne := ne_of_gt (hhead e he)
          simp only [Function.comp_apply, if_neg hne, hother _ _ hne]
        simp only [hrest, if_pos]
        omega
      · have hne : e.1 ≠ k := ne_of_lt (hhead _ hmem)
        have := ih htail hmem
        rw [if_neg hne, hother _ _ hne]
        omega
  exact key m.entries m.sorted (get?_eq_some_iff.mp h)

/-- A sum over the values changes by the change of the updated one. -/
theorem sum_values_modify (h : m.get? k = some a) (f : α → Nat) (b : α) :
    ((m.modify k (fun _ => b)).values.map f).sum + f a = (m.values.map f).sum + f b := by
  have hsum := sum_entries_modify h (fun _ => f) (fun _ => f) (fun _ _ _ => rfl) b
  simpa only [values, List.map_map, Function.comp_def] using hsum

/-- A count over the values changes by the change of the updated one. -/
theorem countP_values_modify (h : m.get? k = some a) (p : α → Bool) (b : α) :
    (m.modify k (fun _ => b)).values.countP p + (if p a then 1 else 0) =
      m.values.countP p + (if p b then 1 else 0) := by
  have hcount : ∀ l : List α, l.countP p = (l.map (fun a => if p a then 1 else 0)).sum := by
    intro l
    induction l with
    | nil => rfl
    | cons a l ih => rw [List.countP_cons, List.map_cons, List.sum_cons, ih, Nat.add_comm]
  rw [hcount, hcount]
  exact sum_values_modify h (fun a => if p a then 1 else 0) b

end BTreeMap
end ScherzoCloud.Collections
