import Mathlib.Data.List.Basic

/-! Lists cut at a mark: the frames of a list are its pieces that end with the mark, in order. -/

namespace Framing

variable {α : Type*} [DecidableEq α] (mark : α)

/-- The complete frames of a list, each with its mark. -/
def frames : List α → List (List α)
  | [] => []
  | x :: xs =>
    if x = mark then [x] :: frames xs
    else
      match frames xs with
      | [] => []
      | f :: fs => (x :: f) :: fs

/-- One frame: a piece without the mark, and the mark. -/
def IsFrame (f : List α) : Prop := ∃ piece, f = piece ++ [mark] ∧ mark ∉ piece

variable {mark}

theorem frames_frame {f xs : List α} (h : IsFrame mark f) : frames mark (f ++ xs) = f :: frames mark xs := by
  obtain ⟨piece, rfl, hpiece⟩ := h
  induction piece with
  | nil => simp [frames]
  | cons x piece ih =>
    rw [List.mem_cons, not_or] at hpiece
    have htail := ih hpiece.2
    rw [List.append_assoc] at htail
    rw [List.append_assoc, List.cons_append, frames, if_neg (Ne.symm hpiece.1), htail]
    rfl

theorem isFrame_of_mem {f xs : List α} (h : f ∈ frames mark xs) : IsFrame mark f := by
  induction xs generalizing f with
  | nil => cases h
  | cons x xs ih =>
    rw [frames] at h
    split_ifs at h with hmark
    · rcases List.mem_cons.1 h with rfl | htail
      · exact ⟨[], by simp [hmark], List.not_mem_nil⟩
      · exact ih htail
    · split at h
      · cases h
      next g gs heq =>
        rcases List.mem_cons.1 h with rfl | htail
        · obtain ⟨piece, rfl, hpiece⟩ := ih (f := g) (heq ▸ List.mem_cons_self)
          exact ⟨x :: piece, rfl, by simp [Ne.symm hmark, hpiece]⟩
        · exact ih (heq ▸ List.mem_cons_of_mem _ htail)

theorem frames_of_not_mem {xs : List α} (h : mark ∉ xs) : frames mark xs = [] := by
  induction xs with
  | nil => rfl
  | cons x xs ih =>
    rw [List.mem_cons, not_or] at h
    rw [frames, if_neg (Ne.symm h.1), ih h.2]

/-- The first mark of a list ends its first frame. -/
theorem isFrame_take {xs : List α} {i : ℕ} (h : xs.findIdx? (· == mark) = some i) : IsFrame mark (xs.take (i + 1)) := by
  obtain ⟨hlt, hmark, hbefore⟩ := List.findIdx?_eq_some_iff_getElem.1 h
  refine ⟨xs.take i, ?_, fun hmem => ?_⟩
  · rw [List.take_succ_eq_append_getElem hlt, eq_of_beq hmark]
  · obtain ⟨j, hj, hget⟩ := List.mem_iff_getElem.1 hmem
    rw [List.length_take] at hj
    have hnot := hbefore j (by omega)
    rw [List.getElem_take] at hget
    simp [hget] at hnot

theorem not_mem_of_findIdx? {xs : List α} (h : xs.findIdx? (· == mark) = none) : mark ∉ xs := by
  intro hmem
  rw [List.findIdx?_eq_none_iff] at h
  simpa using h mark hmem

/-- A list with a mark has a first frame. -/
theorem exists_frame {xs : List α} (h : mark ∈ xs) : ∃ f rest, xs = f ++ rest ∧ IsFrame mark f := by
  cases hfind : xs.findIdx? (· == mark) with
  | none => exact absurd h (not_mem_of_findIdx? hfind)
  | some i => exact ⟨_, _, (List.take_append_drop (i + 1) xs).symm, isFrame_take hfind⟩

omit [DecidableEq α] in
theorem mem_of_frame {f xs rest : List α} (h : xs = f ++ rest) (hframe : IsFrame mark f) : mark ∈ xs := by
  obtain ⟨piece, rfl, -⟩ := hframe
  simp [h]

theorem frame_unique {f g xs rest rest' : List α} (h : xs = f ++ rest) (hf : IsFrame mark f) (h' : xs = g ++ rest')
    (hg : IsFrame mark g) : f = g := by
  have hframes := @frames_frame _ _ _ _ rest hf
  rw [← h, h', frames_frame hg] at hframes
  exact (List.cons.inj hframes).1.symm

/-- A prefix of frames is the list up to what follows them. -/
theorem take_frames {taken : List (List α)} {xs : List α} (h : ∀ f ∈ taken, IsFrame mark f) :
    frames mark (taken.flatten ++ xs) = taken ++ frames mark xs := by
  induction taken with
  | nil => rfl
  | cons f taken ih =>
    rw [List.flatten_cons, List.append_assoc, frames_frame (h f List.mem_cons_self),
      ih fun f hf => h f (List.mem_cons_of_mem _ hf), List.cons_append]

end Framing
