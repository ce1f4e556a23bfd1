import Mathlib.Data.BitVec
import Mathlib.Data.List.GetD

/-! Linear feedback shift registers over a stream of bits. Two streams of one length that leave the same register and
differ only within a window as wide as the register are equal. -/

namespace ShiftRegister

variable {w : ℕ} (poly : BitVec w)

/-- One bit: the register moves down, and the feedback of its lowest bit and the input goes to the taps. -/
def step (c : BitVec w) (b : Bool) : BitVec w :=
  (c >>> 1) ^^^ (if c.getLsbD 0 ^^ b then poly else 0)

def feed (c : BitVec w) (bits : List Bool) : BitVec w := bits.foldl (step poly) c

@[simp] theorem feed_nil (c : BitVec w) : feed poly c [] = c := rfl

@[simp] theorem feed_cons (c : BitVec w) (b : Bool) (bits : List Bool) :
    feed poly c (b :: bits) = feed poly (step poly c b) bits := rfl

theorem feed_append (c : BitVec w) (xs ys : List Bool) : feed poly c (xs ++ ys) = feed poly (feed poly c xs) ys :=
  List.foldl_append

/-! ### Linearity -/

theorem getLsbD_step (c : BitVec w) (b : Bool) (i : ℕ) :
    (step poly c b).getLsbD i = (c.getLsbD (1 + i) ^^ ((c.getLsbD 0 ^^ b) && poly.getLsbD i)) := by
  unfold step
  cases c.getLsbD 0 ^^ b <;> simp

theorem step_xor (c d : BitVec w) (a b : Bool) : step poly (c ^^^ d) (a ^^ b) = step poly c a ^^^ step poly d b := by
  refine BitVec.eq_of_getLsbD_eq fun i _ => ?_
  rw [BitVec.getLsbD_xor, getLsbD_step, getLsbD_step, getLsbD_step, BitVec.getLsbD_xor, BitVec.getLsbD_xor]
  cases poly.getLsbD i <;> cases a <;> cases b <;> cases c.getLsbD 0 <;> cases d.getLsbD 0 <;> simp

theorem feed_xor (c d : BitVec w) (xs ys : List Bool) (h : xs.length = ys.length) :
    feed poly (c ^^^ d) (xs.zipWith xor ys) = feed poly c xs ^^^ feed poly d ys := by
  induction xs generalizing c d ys with
  | nil => simp [List.length_eq_zero_iff.1 h.symm]
  | cons a xs ih =>
    cases ys with
    | nil => cases h
    | cons b ys =>
      rw [List.zipWith_cons_cons, feed_cons, feed_cons, feed_cons, step_xor]
      exact ih _ _ ys (Nat.succ.inj h)

theorem feed_zeros (n : ℕ) : feed poly (0 : BitVec w) (List.replicate n false) = 0 := by
  induction n with
  | zero => rfl
  | succ n ih =>
    have hstep : step poly (0 : BitVec w) false = 0 := by
      refine BitVec.eq_of_getLsbD_eq fun i _ => ?_
      rw [getLsbD_step]
      simp
    rw [List.replicate_succ, feed_cons, hstep, ih]

/-! ### What leaves an empty register -/

variable {poly}

/-- With its top tap set, no more bits than the register is wide leave it empty exactly if they are the bits in it,
lowest first, and no other bit is set. -/
theorem feed_eq_zero (htop : poly.getLsbD (w - 1) = true) {bits : List Bool} (hlen : bits.length ≤ w) (c : BitVec w) :
    feed poly c bits = 0 ↔ ∀ i, c.getLsbD i = bits.getD i false := by
  induction bits generalizing c with
  | nil =>
    refine ⟨fun h i => ?_, fun h => BitVec.eq_of_getLsbD_eq fun i _ => ?_⟩
    · rw [feed_nil] at h
      simp [h]
    · rw [feed_nil, h i]
      simp
  | cons b bits ih =>
    have hlen' : bits.length + 1 ≤ w := hlen
    rw [feed_cons, ih (by omega)]
    constructor
    · intro h i
      -- the top bit of the next register is the feedback, and that many bits cannot reach it
      have hquiet : (c.getLsbD 0 ^^ b) = false := by
        have hhigh := h (w - 1)
        rw [getLsbD_step, htop, Bool.and_true, BitVec.getLsbD_of_ge c _ (by omega), Bool.false_xor,
          List.getD_eq_default _ _ (by omega)] at hhigh
        exact hhigh
      cases i with
      | zero => simpa using hquiet
      | succ i =>
        have hnext := h i
        rw [getLsbD_step, hquiet, Bool.false_and, Bool.xor_false, Nat.add_comm] at hnext
        simpa using hnext
    · intro h i
      have hlow := h 0
      have hnext := h (i + 1)
      rw [List.getD_cons_zero] at hlow
      rw [List.getD_cons_succ] at hnext
      rw [getLsbD_step, hlow, Bool.xor_self, Bool.false_and, Bool.xor_false, Nat.add_comm, hnext]

/-- Idle input empties no register. -/
theorem feed_zeros_eq_zero (htop : poly.getLsbD (w - 1) = true) {n : ℕ} {c : BitVec w} (hw : 0 < w)
    (h : feed poly c (List.replicate n false) = 0) : c = 0 := by
  induction n generalizing c with
  | zero => exact h
  | succ n ih =>
    rw [List.replicate_succ, feed_cons] at h
    have hstep : feed poly c [false] = 0 := ih h
    have hone : [false].length ≤ w := hw
    refine BitVec.eq_of_getLsbD_eq fun i _ => ?_
    rw [(feed_eq_zero htop hone c).1 hstep i]
    cases i <;> simp

/-! ### Bursts -/

/-- Two streams that leave the same register and differ at most within one window as wide as the register are equal. -/
theorem burst_eq (htop : poly.getLsbD (w - 1) = true) (hw : 0 < w) {c : BitVec w} {xs ys : List Bool} {start : ℕ}
    (hlen : xs.length = ys.length) (h : feed poly c xs = feed poly c ys)
    (hwindow : ∀ i, xs[i]? ≠ ys[i]? → start ≤ i ∧ i < start + w) : xs = ys := by
  generalize he : xs.zipWith xor ys = e
  have helen : e.length = xs.length := by rw [← he, List.length_zipWith, hlen, min_self]
  have hbit : ∀ i (_ : i < e.length) (_ : i < xs.length) (_ : i < ys.length), e[i] = (xs[i] ^^ ys[i]) := by
    intro i hi hx hy
    simp only [← he, List.getElem_zipWith]
  have hclean : ∀ i (hi : i < e.length), ¬ (start ≤ i ∧ i < start + w) → e[i] = false := by
    intro i hi hout
    have hsame : xs[i]? = ys[i]? := by
      by_contra hne
      exact hout (hwindow i hne)
    rw [List.getElem?_eq_getElem (helen ▸ hi), List.getElem?_eq_getElem (hlen ▸ helen ▸ hi)] at hsame
    rw [hbit i hi (helen ▸ hi) (hlen ▸ helen ▸ hi), Option.some.inj hsame, Bool.xor_self]
  have hzero : feed poly 0 e = 0 := by
    have hxor := feed_xor poly c c xs ys hlen
    rw [BitVec.xor_self, he, h, BitVec.xor_self] at hxor
    exact hxor
  -- nothing differs before the window or after it, so the register is empty at both of its ends
  have hsplit : e = e.take start ++ ((e.drop start).take w ++ (e.drop start).drop w) := by
    rw [List.take_append_drop, List.take_append_drop]
  have hbefore : e.take start = List.replicate (e.take start).length false := by
    refine List.eq_replicate_iff.2 ⟨rfl, fun b hb => ?_⟩
    obtain ⟨i, hi, rfl⟩ := List.mem_iff_getElem.1 hb
    rw [List.length_take] at hi
    rw [List.getElem_take]
    exact hclean i (by omega) (by omega)
  have hafter : (e.drop start).drop w = List.replicate ((e.drop start).drop w).length false := by
    refine List.eq_replicate_iff.2 ⟨rfl, fun b hb => ?_⟩
    obtain ⟨i, hi, rfl⟩ := List.mem_iff_getElem.1 hb
    rw [List.length_drop, List.length_drop] at hi
    rw [List.getElem_drop, List.getElem_drop]
    exact hclean _ (by omega) (by omega)
  rw [hsplit, feed_append, hbefore, feed_zeros, feed_append, hafter] at hzero
  have hmid := feed_zeros_eq_zero htop hw hzero
  have hinside := (feed_eq_zero htop (List.length_take_le w _) 0).1 hmid
  have hnone : ∀ i (hi : i < e.length), e[i] = false := by
    intro i hi
    by_cases hin : start ≤ i ∧ i < start + w
    · have hlook := hinside (i - start)
      rw [List.getD_eq_getElem _ _ (by simp; omega), List.getElem_take, List.getElem_drop] at hlook
      simp only [Nat.add_sub_cancel' hin.1] at hlook
      simpa using hlook.symm
    · exact hclean i hi hin
  refine List.ext_getElem hlen fun i hx hy => ?_
  have hsame := hnone i (helen ▸ hx)
  rw [hbit] at hsame
  simpa using hsame

end ShiftRegister
