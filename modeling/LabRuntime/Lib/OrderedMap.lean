import Mathlib.Data.List.Sort
import Mathlib.Data.Prod.Lex
import Mathlib.Algebra.Order.BigOperators.Group.List
import Mathlib.Algebra.Order.Group.Nat
import Mathlib.Algebra.Ring.Nat

/-! Finite maps that are iterated in key order. A map is its entries, sorted by key; every
lookup fact below is read off membership in them. -/

structure OrderedMap (κ α : Type*) [LinearOrder κ] where
  entries : List (κ × α)
  sorted : entries.Pairwise fun a b => a.1 < b.1

namespace OrderedMap

variable {κ α : Type*} [LinearOrder κ]

instance [Repr κ] [Repr α] : Repr (OrderedMap κ α) := ⟨fun m => reprPrec m.entries⟩

def empty : OrderedMap κ α := ⟨[], List.Pairwise.nil⟩

def get (m : OrderedMap κ α) (k : κ) : Option α := m.entries.lookup k

def contains (m : OrderedMap κ α) (k : κ) : Bool := (m.get k).isSome

def keys (m : OrderedMap κ α) : List κ := m.entries.map Prod.fst

def values (m : OrderedMap κ α) : List α := m.entries.map Prod.snd

def size (m : OrderedMap κ α) : ℕ := m.entries.length

/-- Keep the entries that meet a test. -/
def retain (m : OrderedMap κ α) (p : κ → α → Bool) : OrderedMap κ α :=
  ⟨m.entries.filter fun e => p e.1 e.2, m.sorted.filter _⟩

def remove (m : OrderedMap κ α) (k : κ) : OrderedMap κ α := m.retain fun k' _ => decide (k' ≠ k)

theorem sorted_insert (m : OrderedMap κ α) (k : κ) (a : α) :
    (m.entries.filter (fun e => decide (e.1 < k)) ++
      (k, a) :: m.entries.filter (fun e => decide (k < e.1))).Pairwise fun a b => a.1 < b.1 := by
  rw [List.pairwise_append, List.pairwise_cons]
  refine ⟨m.sorted.filter _, ⟨fun e he => ?_, m.sorted.filter _⟩, fun e he f hf => ?_⟩
  · simpa using (List.mem_filter.1 he).2
  · have hlow : e.1 < k := by simpa using (List.mem_filter.1 he).2
    rcases List.mem_cons.1 hf with rfl | hf
    · exact hlow
    · have hhigh : k < f.1 := by simpa using (List.mem_filter.1 hf).2
      exact hlow.trans hhigh

def insert (m : OrderedMap κ α) (k : κ) (a : α) : OrderedMap κ α := ⟨_, m.sorted_insert k a⟩

/-- Insert the entries of a list in turn. -/
def extend (m : OrderedMap κ α) (es : List (κ × α)) : OrderedMap κ α :=
  es.foldl (fun m e => m.insert e.1 e.2) m

def mapValues (m : OrderedMap κ α) (f : α → α) : OrderedMap κ α :=
  ⟨m.entries.map fun e => (e.1, f e.2), List.pairwise_map.2 m.sorted⟩

/-- A quantity of the values, summed over the map. -/
def total (m : OrderedMap κ α) (f : α → ℕ) : ℕ := (m.values.map f).sum

variable (m : OrderedMap κ α) {k k' : κ} {a : α}

/-! ### Lookup -/

theorem lookup_of_mem {l : List (κ × α)} (sorted : l.Pairwise fun a b => a.1 < b.1) (h : (k, a) ∈ l) :
    l.lookup k = some a := by
  induction l with
  | nil => cases h
  | cons e l ih =>
    obtain ⟨hlt, hl⟩ := List.pairwise_cons.1 sorted
    rcases List.mem_cons.1 h with rfl | h
    · rw [List.lookup_cons_self]
    · have hne : (k == e.1) = false := by simpa using (hlt _ h).ne'
      rw [List.lookup_cons, hne]
      exact ih hl h

theorem mem_of_lookup {l : List (κ × α)} (h : l.lookup k = some a) : (k, a) ∈ l := by
  induction l with
  | nil => simp at h
  | cons e l ih =>
    by_cases heq : (k == e.1) = true
    · rw [List.lookup_cons, heq] at h
      obtain rfl := eq_of_beq heq
      obtain rfl : e.2 = a := by simpa using h
      exact List.mem_cons_self
    · have heq : (k == e.1) = false := by simpa using heq
      rw [List.lookup_cons, heq] at h
      exact List.mem_cons_of_mem _ (ih h)

theorem mem_entries : (k, a) ∈ m.entries ↔ m.get k = some a :=
  ⟨lookup_of_mem m.sorted, mem_of_lookup⟩

theorem mem_keys : k ∈ m.keys ↔ (m.get k).isSome := by
  simp [keys, Option.isSome_iff_exists, mem_entries]

theorem keys_nodup : m.keys.Nodup :=
  (List.pairwise_map.2 m.sorted : m.keys.Pairwise (· < ·)).imp fun hlt => hlt.ne

theorem mem_values : a ∈ m.values ↔ ∃ k, m.get k = some a := by simp [values, mem_entries]

@[simp] theorem get_empty : (empty : OrderedMap κ α).get k = none := rfl

theorem get_retain (p : κ → α → Bool) : (m.retain p).get k = (m.get k).filter (p k) := by
  ext a
  rw [← mem_entries, retain, List.mem_filter, mem_entries, Option.filter_eq_some_iff]

theorem get_remove : (m.remove k).get k' = if k' = k then none else m.get k' := by
  rw [remove, get_retain]
  split_ifs with h
  · simp [h]
  · cases m.get k' <;> simp [h]

theorem get_insert : (m.insert k a).get k' = if k' = k then some a else m.get k' := by
  ext b
  rw [← mem_entries, insert]
  simp only [List.mem_append, List.mem_cons, List.mem_filter, mem_entries, decide_eq_true_eq, Prod.mk.injEq]
  split_ifs with h
  · simp [h, eq_comm]
  · rcases lt_or_gt_of_ne h with hlt | hgt
    · simp [h, hlt, hlt.not_gt]
    · simp [h, hgt, hgt.not_gt]

theorem get_insert_cases {b : α} (h : (m.insert k a).get k' = some b) :
    k' = k ∧ b = a ∨ m.get k' = some b := by
  rw [get_insert] at h
  split_ifs at h with heq
  · exact .inl ⟨heq, (Option.some.inj h).symm⟩
  · exact .inr h

theorem get_insert_split {b : α} (h : (m.insert k a).get k' = some b) :
    k' = k ∧ b = a ∨ k' ≠ k ∧ m.get k' = some b := by
  rw [get_insert] at h
  split_ifs at h with heq
  · exact .inl ⟨heq, (Option.some.inj h).symm⟩
  · exact .inr ⟨heq, h⟩

@[simp] theorem get_insert_self : (m.insert k a).get k = some a := by simp [get_insert]

@[simp] theorem get_remove_self : (m.remove k).get k = none := by simp [get_remove]

theorem get_insert_of_ne (h : k' ≠ k) : (m.insert k a).get k' = m.get k' := by simp [get_insert, h]

theorem get_remove_of_ne (h : k' ≠ k) : (m.remove k).get k' = m.get k' := by simp [get_remove, h]

theorem contains_iff : m.contains k = true ↔ ∃ a, m.get k = some a := Option.isSome_iff_exists

theorem contains_insert : (m.insert k a).contains k' = if k' = k then true else m.contains k' := by
  rw [contains, get_insert]
  split_ifs <;> rfl

theorem contains_remove : (m.remove k).contains k' = if k' = k then false else m.contains k' := by
  rw [contains, get_remove]
  split_ifs <;> rfl

/-- A map is determined by its lookups. -/
theorem ext_get {m m' : OrderedMap κ α} (h : ∀ k, m.get k = m'.get k) : m = m' := by
  have hmem : ∀ e, e ∈ m.entries ↔ e ∈ m'.entries := fun e => by rw [mem_entries, mem_entries, h]
  have hnodup : ∀ m : OrderedMap κ α, m.entries.Nodup := fun m =>
    m.sorted.imp fun hlt => by rintro rfl; exact lt_irrefl _ hlt
  have hperm := (List.perm_ext_iff_of_nodup (hnodup m) (hnodup m')).2 hmem
  have heq : m.entries = m'.entries :=
    hperm.eq_of_pairwise (fun e f _ _ h1 h2 => absurd h1 h2.not_gt) m.sorted m'.sorted
  cases m; cases m'
  simpa using heq

theorem insert_remove : (m.remove k).insert k a = m.insert k a :=
  ext_get fun k' => by simp only [get_insert, get_remove]; split_ifs <;> rfl

theorem insert_get (h : m.get k = some a) : m.insert k a = m :=
  ext_get fun k' => by
    rw [get_insert]
    split_ifs with heq
    · rw [heq, h]
    · rfl

theorem insert_insert {b : α} : (m.insert k a).insert k b = m.insert k b :=
  ext_get fun k' => by simp only [get_insert]; split_ifs <;> rfl

theorem mem_keys_insert : k' ∈ (m.insert k a).keys ↔ k' = k ∨ k' ∈ m.keys := by
  rw [mem_keys, mem_keys, get_insert]
  split_ifs with h <;> simp [h]

/-- Inserting where a key is present replaces its value in place. -/
theorem keys_insert_of_mem (h : k ∈ m.keys) : (m.insert k a).keys = m.keys := by
  have hsorted : ∀ m : OrderedMap κ α, m.keys.Pairwise (· < ·) := fun m =>
    List.pairwise_map.2 m.sorted
  refine List.Perm.eq_of_pairwise (fun e f _ _ h1 h2 => absurd h1 h2.not_gt) (hsorted _) (hsorted _)
    ((List.perm_ext_iff_of_nodup (keys_nodup _) (keys_nodup _)).2 fun k' => ?_)
  rw [mem_keys_insert, or_iff_right_of_imp]
  rintro rfl
  exact h

theorem get_extend_of_not_mem {es : List (κ × α)} (h : ∀ e ∈ es, e.1 ≠ k) : (m.extend es).get k = m.get k := by
  induction es generalizing m with
  | nil => rfl
  | cons e es ih =>
    rw [extend, List.foldl_cons, ← extend, ih (m.insert e.1 e.2) fun f hf => h f (List.mem_cons_of_mem _ hf),
      get_insert_of_ne m (h e List.mem_cons_self).symm]

theorem get_extend_cases {es : List (κ × α)} (h : (m.extend es).get k = some a) : (k, a) ∈ es ∨ m.get k = some a := by
  induction es generalizing m with
  | nil => exact .inr h
  | cons e es ih =>
    obtain hmem | hget := ih (m.insert e.1 e.2) h
    · exact .inl (List.mem_cons_of_mem _ hmem)
    · obtain ⟨rfl, rfl⟩ | hold := get_insert_cases _ hget
      · exact .inl List.mem_cons_self
      · exact .inr hold

theorem get_mapValues (f : α → α) : (m.mapValues f).get k = (m.get k).map f := by
  ext b
  rw [← mem_entries, mapValues, List.mem_map, Option.map_eq_some_iff]
  constructor
  · rintro ⟨e, he, heq⟩
    obtain ⟨rfl, rfl⟩ := Prod.mk.inj heq
    exact ⟨e.2, (mem_entries m).1 he, rfl⟩
  · rintro ⟨a, ha, rfl⟩
    exact ⟨(k, a), (mem_entries m).2 ha, rfl⟩

/-! ### Sizes and sums -/

/-- The entries around a key that is present. -/
theorem entries_split (h : m.get k = some a) :
    ∃ l r, m.entries = l ++ (k, a) :: r ∧ ∀ b, (m.insert k b).entries = l ++ (k, b) :: r := by
  obtain ⟨l, r, heq⟩ := List.mem_iff_append.1 (m.mem_entries.2 h)
  have hsorted := m.sorted
  rw [heq, List.pairwise_append, List.pairwise_cons] at hsorted
  obtain ⟨-, ⟨hr, -⟩, hl⟩ := hsorted
  refine ⟨l, r, heq, fun b => ?_⟩
  have hlow : ∀ e ∈ l, e.1 < k := fun e he => hl e he (k, a) List.mem_cons_self
  have hleft : m.entries.filter (fun e => decide (e.1 < k)) = l := by
    rw [heq, List.filter_append, List.filter_eq_self.2 fun e he => by simpa using hlow e he,
      List.filter_cons_of_neg (by simp), List.filter_eq_nil_iff.2 fun e he => by simpa using (hr e he).le,
      List.append_nil]
  have hright : m.entries.filter (fun e => decide (k < e.1)) = r := by
    rw [heq, List.filter_append, List.filter_eq_nil_iff.2 fun e he => by simpa using (hlow e he).le,
      List.filter_cons_of_neg (by simp), List.filter_eq_self.2 fun e he => by simpa using hr e he,
      List.nil_append]
  show _ ++ (k, b) :: _ = _
  rw [hleft, hright]

theorem total_insert_of_get (f : α → ℕ) (b : α) (h : m.get k = some a) :
    (m.insert k b).total f + f a = m.total f + f b := by
  obtain ⟨l, r, heq, hins⟩ := m.entries_split h
  simp only [total, values, heq, hins, List.map_append, List.map_cons, List.sum_append, List.sum_cons]
  omega

theorem insert_perm_of_none (b : α) (h : m.get k = none) : (m.insert k b).entries.Perm ((k, b) :: m.entries) := by
  have hne : ∀ e ∈ m.entries, e.1 ≠ k := fun e he heq => by
    have hget : m.get e.1 = some e.2 := m.mem_entries.1 he
    rw [heq, h] at hget
    cases hget
  have hnot : m.entries.filter (fun e => decide (k < e.1)) = m.entries.filter (fun e => !decide (e.1 < k)) :=
    List.filter_congr fun e he => by
      rcases lt_or_gt_of_ne (hne e he) with hlt | hgt
      · simp [hlt, hlt.not_gt]
      · simp [hgt, hgt.not_gt]
  show List.Perm (_ ++ (k, b) :: _) _
  rw [hnot]
  exact List.perm_middle.trans ((List.filter_append_perm _ _).cons _)

theorem total_insert_of_none (f : α → ℕ) (b : α) (h : m.get k = none) :
    (m.insert k b).total f = m.total f + f b := by
  have hperm := ((m.insert_perm_of_none b h).map fun e => f e.2).sum_eq
  simp only [List.map_cons, List.sum_cons] at hperm
  simpa [total, values, Function.comp_def, Nat.add_comm] using hperm

theorem total_retain_le (f : α → ℕ) (p : κ → α → Bool) : (m.retain p).total f ≤ m.total f := by
  have hsub : ((m.retain p).values.map f).Sublist (m.values.map f) := (List.filter_sublist.map _).map _
  exact hsub.sum_le_sum fun _ _ => Nat.zero_le _

theorem total_mapValues_le (f : α → ℕ) (g : α → α) (h : ∀ a, f (g a) ≤ f a) :
    (m.mapValues g).total f ≤ m.total f := by
  simp only [total, values, mapValues, List.map_map]
  exact List.sum_le_sum fun e _ => h e.2

theorem total_mapValues (f : α → ℕ) (g : α → α) (h : ∀ a, f (g a) = f a) :
    (m.mapValues g).total f = m.total f := by
  simp only [total, values, mapValues, List.map_map, Function.comp_def, h]

theorem le_total (f : α → ℕ) (h : m.get k = some a) : f a ≤ m.total f :=
  List.single_le_sum (fun _ _ => Nat.zero_le _) _ (List.mem_map_of_mem (m.mem_values.2 ⟨k, h⟩))

theorem size_eq_total : m.size = m.total fun _ => 1 := by
  have hones : m.values.map (fun _ => 1) = List.replicate m.entries.length 1 := by rw [List.map_const', values, List.length_map]
  rw [size, total, hones, List.sum_const_nat, mul_one]

theorem size_insert_of_none (b : α) (h : m.get k = none) : (m.insert k b).size = m.size + 1 := by
  rw [size_eq_total, size_eq_total]
  exact m.total_insert_of_none _ b h

theorem size_remove_of_get (h : m.get k = some a) : (m.remove k).size + 1 = m.size := by
  rw [← size_insert_of_none (m.remove k) a m.get_remove_self, insert_remove, insert_get m h]

end OrderedMap
