import LabRuntime.Lib.History
import Mathlib.Data.List.Nodup

/-! Logs whose entries belong to lines. Within its line every entry is numbered by how many came before it, so that the line
and the number name the entry. -/

namespace Lines

variable {α κ : Type*} [DecidableEq κ] (key : α → κ) (number : α → ℕ)

/-- The entries of one line, in order. -/
def line (k : κ) (xs : List α) : List α := xs.filter fun x => decide (key x = k)

/-- Every entry has the number of the entries before it in its line, counted from `base`. -/
def Numbered (base : ℕ) (xs : List α) : Prop :=
  History.Hitherto (fun earlier x => number x = (line key (key x) earlier).length + base) xs

variable {key number} {base : ℕ} {k : κ} {x y : α} {xs : List α}

theorem mem_line : x ∈ line key k xs ↔ x ∈ xs ∧ key x = k := by simp [line]

@[simp] theorem line_nil : line key k [] = [] := rfl

theorem line_snoc (h : key x = k) : line key k (xs ++ [x]) = line key k xs ++ [x] := by simp [line, h]

theorem line_snoc_of_ne (h : key x ≠ k) : line key k (xs ++ [x]) = line key k xs := by simp [line, h]

theorem line_eq_nil (h : ∀ x ∈ xs, key x ≠ k) : line key k xs = [] := by
  simp only [line, List.filter_eq_nil_iff, decide_eq_true_eq]
  exact h

theorem numbered_nil : Numbered key number base [] := History.hitherto_nil

theorem numbered_snoc : Numbered key number base (xs ++ [x]) ↔
    Numbered key number base xs ∧ number x = (line key (key x) xs).length + base := History.hitherto_snoc

/-- The numbers of a line are used up to its length. -/
theorem Numbered.number_lt (h : Numbered key number base xs) (hx : x ∈ xs) :
    number x < (line key (key x) xs).length + base := by
  obtain ⟨before, after, rfl⟩ := List.append_of_mem hx
  have hnumber : number x = (line key (key x) before).length + base := h.next
  have hlength : (line key (key x) (before ++ x :: after)).length =
      (line key (key x) before).length + (line key (key x) (x :: after)).length := by simp [line]
  have hself : 0 < (line key (key x) (x :: after)).length :=
    List.length_pos_of_mem (mem_line.2 ⟨List.mem_cons_self, rfl⟩)
  omega

theorem Numbered.base_le (h : Numbered key number base xs) (hx : x ∈ xs) : base ≤ number x := by
  obtain ⟨before, after, rfl⟩ := List.append_of_mem hx
  have hnumber : number x = (line key (key x) before).length + base := h.next
  omega

/-- Within a line the numbers grow. -/
theorem Numbered.pairwise (h : Numbered key number base xs) : xs.Pairwise fun x y => key x = key y → number x < number y := by
  induction xs using List.reverseRecOn with
  | nil => exact .nil
  | append_singleton xs y ih =>
    obtain ⟨hxs, hy⟩ := numbered_snoc.1 h
    refine List.pairwise_append.2 ⟨ih hxs, List.pairwise_singleton _ _, ?_⟩
    intro x hx z hz hkey
    obtain rfl := List.mem_singleton.1 hz
    rw [hy, ← hkey]
    exact hxs.number_lt hx

/-- The line and the number name an entry. -/
theorem Numbered.nodup (h : Numbered key number base xs) : (xs.map fun x => (key x, number x)).Nodup := by
  refine List.pairwise_map.2 (h.pairwise.imp fun hlt heq => ?_)
  obtain ⟨hkey, hnumber⟩ := Prod.mk.inj heq
  exact absurd hnumber (Nat.ne_of_lt (hlt hkey))

theorem Numbered.unique (h : Numbered key number base xs) (hx : x ∈ xs) (hy : y ∈ xs) (hkey : key x = key y)
    (hnumber : number x = number y) : x = y :=
  List.inj_on_of_nodup_map h.nodup hx hy (by rw [hkey, hnumber])

end Lines
