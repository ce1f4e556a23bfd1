import Mathlib.Data.List.Forall2
import Mathlib.Data.List.Sort
import Mathlib.Order.Basic

/-! Reading an ordered collection page by page. Each page is a nonempty front of what lies after
the last key seen and not above a key fixed at the start; the collection may grow between pages.
What was there at the start is read exactly once, in order. -/

namespace Keyset

variable {α κ : Type*} [LinearOrder κ] (key : α → κ)

/-- The elements of a collection in key order, no key twice. -/
structure Lists (P : α → Prop) (l : List α) : Prop where
  ordered : l.Pairwise fun a b => key a < key b
  mem : ∀ a, a ∈ l ↔ P a

/-- What lies after the last key and not above the fixed one. -/
def Window (S : α → Prop) (last : Option κ) (upper : κ) (a : α) : Prop :=
  S a ∧ (∀ k ∈ last, k < key a) ∧ key a ≤ upper

/-- One page of a collection: all of the window, or a nonempty front of it. -/
structure Page (S : α → Prop) (last : Option κ) (upper : κ) (page : List α) (more : Bool) : Prop where
  front : ∃ window, Lists key (Window key S last upper) window ∧ page <+: window ∧ (more = false → page = window)
  progress : more = true → page ≠ []

/-- Pages read one after the other, each from the collection as it is by then. -/
inductive Walk (upper : κ) : Option κ → List (α → Prop) → List α → Prop
  | done {last S page} (h : Page key S last upper page false) : Walk upper last [S] page
  | more {last S page Ss rest} (a : α) (h : Page key S last upper page true) (hlast : page.getLast? = some a)
      (hrest : Walk upper (some (key a)) Ss rest) : Walk upper last (S :: Ss) (page ++ rest)

/-- The collections only grow, as far as keys go. -/
def Grows (Ss : List (α → Prop)) : Prop := Ss.IsChain fun S S' => ∀ a, S a → ∃ b, S' b ∧ key b = key a

variable {key} {upper : κ} {last : Option κ} {S : α → Prop} {Ss : List (α → Prop)} {page l : List α} {a b : α}

theorem Page.after (h : Page key S last upper page true) (hlast : page.getLast? = some a) :
    (∀ b ∈ page, key b ≤ key a) ∧ (∀ k ∈ last, k < key a) ∧
      ∀ b, Window key S last upper b → b ∈ page ∨ key a < key b := by
  obtain ⟨⟨window, hwindow, ⟨tail, rfl⟩, -⟩, -⟩ := h
  obtain ⟨front, rfl⟩ := List.getLast?_eq_some_iff.1 hlast
  have hordered := List.pairwise_append.1 hwindow.ordered
  have hfront := List.pairwise_append.1 hordered.1
  refine ⟨fun b hb => ?_, ?_, fun b hb => ?_⟩
  · rcases List.mem_append.1 hb with hb | hb
    · exact (hfront.2.2 b hb a (by simp)).le
    · exact (List.mem_singleton.1 hb).symm ▸ le_rfl
  · exact ((hwindow.mem a).1 (by simp)).2.1
  · rcases List.mem_append.1 ((hwindow.mem b).2 hb) with hb | hb
    · exact .inl hb
    · exact .inr (hordered.2.2 a (by simp) b hb)

theorem Page.mem {more : Bool} (h : Page key S last upper page more) (ha : a ∈ page) : Window key S last upper a := by
  obtain ⟨window, hwindow, hpre, -⟩ := h.front
  exact (hwindow.mem a).1 (hpre.subset ha)

theorem Page.ordered {more : Bool} (h : Page key S last upper page more) : page.Pairwise fun a b => key a < key b := by
  obtain ⟨window, hwindow, hpre, -⟩ := h.front
  exact hwindow.ordered.sublist hpre.sublist

/-- What a walk reads lies in its window and belongs to a collection on the way. -/
theorem Walk.sound (h : Walk key upper last Ss l) : ∀ a ∈ l, (∀ k ∈ last, k < key a) ∧ key a ≤ upper ∧ ∃ S ∈ Ss, S a := by
  induction h with
  | done h =>
    intro a ha
    obtain ⟨hS, hlow, hhigh⟩ := h.mem ha
    exact ⟨hlow, hhigh, _, by simp, hS⟩
  | more c h hlast _ ih =>
    intro a ha
    rcases List.mem_append.1 ha with ha | ha
    · obtain ⟨hS, hlow, hhigh⟩ := h.mem ha
      exact ⟨hlow, hhigh, _, by simp, hS⟩
    · obtain ⟨hlow, hhigh, S, hS, ha⟩ := ih a ha
      have hc := hlow _ rfl
      exact ⟨fun k hk => ((h.after hlast).2.1 k hk).trans hc, hhigh, S, List.mem_cons_of_mem _ hS, ha⟩

/-- A walk reads in key order and nothing twice. -/
theorem Walk.ordered (h : Walk key upper last Ss l) : l.Pairwise fun a b => key a < key b := by
  induction h with
  | done h => exact h.ordered
  | more c h hlast hrest ih =>
    refine List.pairwise_append.2 ⟨h.ordered, ih, fun a ha b hb => ?_⟩
    exact ((h.after hlast).1 a ha).trans_lt ((hrest.sound b hb).1 _ rfl)

/-- A walk misses nothing that was there at its start. -/
theorem Walk.complete (h : Walk key upper last (S :: Ss) l) (hgrows : Grows key (S :: Ss)) (ha : Window key S last upper a) :
    ∃ b ∈ l, key b = key a := by
  generalize hall : S :: Ss = all at h
  induction h generalizing S Ss a with
  | done h =>
    obtain ⟨rfl, -⟩ := List.cons.inj hall
    obtain ⟨window, hwindow, -, heq⟩ := h.front
    exact ⟨a, heq rfl ▸ (hwindow.mem a).2 ha, rfl⟩
  | @more last S' page Ss' rest c h hlast hrest ih =>
    obtain ⟨rfl, rfl⟩ := List.cons.inj hall
    rcases (h.after hlast).2.2 a ha with hpage | hafter
    · exact ⟨a, List.mem_append_left _ hpage, rfl⟩
    · cases Ss with
      | nil => cases hrest
      | cons S₂ Ss₂ =>
        obtain ⟨hstep, hgrows⟩ := List.isChain_cons_cons.1 hgrows
        obtain ⟨b, hb, hkey⟩ := hstep a ha.1
        have hwindow : Window key S₂ (some (key c)) upper b :=
          ⟨hb, fun k hk => by cases hk; exact hkey ▸ hafter, hkey ▸ ha.2.2⟩
        obtain ⟨d, hd, hdkey⟩ := ih hgrows hwindow rfl
        exact ⟨d, List.mem_append_right _ hd, hdkey.trans hkey⟩

/-- A walk ends: it reads no more pages than elements, and perhaps one. -/
theorem Walk.length_le (h : Walk key upper last Ss l) : Ss.length ≤ l.length + 1 := by
  induction h with
  | done h => simp
  | @more last S page Ss rest c h _ _ ih =>
    have hpage := List.length_pos_iff.2 (h.progress rfl)
    rw [List.length_cons, List.length_append]
    omega

/-- A collection that keeps its elements is read exactly. -/
theorem Walk.lists (h : Walk key upper last Ss l) (hne : Ss ≠ []) (hsame : ∀ S' ∈ Ss, ∀ a, S' a ↔ S a)
    (hkey : ∀ a b, S a → S b → key a = key b → a = b) : Lists key (Window key S last upper) l := by
  refine ⟨h.ordered, fun a => ⟨fun ha => ?_, fun ha => ?_⟩⟩
  · obtain ⟨hlow, hhigh, S', hS', haS⟩ := h.sound a ha
    exact ⟨(hsame S' hS' a).1 haS, hlow, hhigh⟩
  · cases Ss with
    | nil => exact absurd rfl hne
    | cons S₁ Ss₁ =>
      have hgrows : Grows key (S₁ :: Ss₁) := by
        rw [Grows, List.isChain_iff_getElem]
        intro i hi a haS
        refine ⟨a, (hsame _ (List.getElem_mem _) a).2 ((hsame _ (List.getElem_mem _) a).1 haS), rfl⟩
      have hwindow : Window key S₁ last upper a := ⟨(hsame S₁ List.mem_cons_self a).2 ha.1, ha.2⟩
      obtain ⟨b, hb, hkeys⟩ := h.complete hgrows hwindow
      obtain ⟨-, -, S', hS', hbS⟩ := h.sound b hb
      exact hkey b a ((hsame S' hS' b).1 hbS) ha.1 hkeys ▸ hb

/-- Moving on to the key of an element leaves fewer after it. -/
theorem length_after_lt {rows : List α} {k : κ} (ha : a ∈ rows) (hk : k < key a) :
    (rows.filter fun b => decide (key a < key b)).length < (rows.filter fun b => decide (k < key b)).length := by
  have hnested : (rows.filter fun b => decide (key a < key b)) =
      (rows.filter fun b => decide (k < key b)).filter fun b => decide (key a < key b) := by
    rw [List.filter_filter]
    refine List.filter_congr fun b _ => ?_
    rw [← Bool.decide_and, decide_eq_decide]
    exact ⟨fun h => ⟨h, hk.trans h⟩, fun h => h.1⟩
  rw [hnested, List.length_filter_lt_length_iff_exists]
  exact ⟨a, List.mem_filter.2 ⟨ha, decide_eq_true hk⟩, by simp⟩

/-! ### What the elements are read as -/

section Read

variable {β : Type*} {R : α → β → Prop} {as : List α} {bs : List β}

theorem getLast?_read (h : List.Forall₂ R as bs) {b : β} (hb : bs.getLast? = some b) :
    ∃ a, as.getLast? = some a ∧ R a b := by
  obtain ⟨front, rfl⟩ := List.getLast?_eq_some_iff.1 hb
  have hrev := List.forall₂_reverse_iff.2 h
  rw [List.reverse_append, List.reverse_singleton, List.singleton_append] at hrev
  obtain ⟨a, rest, hab, -, heq⟩ := List.forall₂_cons_right_iff.1 hrev
  exact ⟨a, by rw [← List.reverse_reverse as, heq, List.getLast?_reverse, List.head?_cons], hab⟩

/-- Elements in order are read in order. -/
theorem pairwise_read {P : α → α → Prop} {Q : β → β → Prop} (h : List.Forall₂ R as bs) (hP : as.Pairwise P)
    (hPQ : ∀ a ∈ as, ∀ a' ∈ as, ∀ b b', R a b → R a' b' → P a a' → Q b b') : bs.Pairwise Q := by
  induction h with
  | nil => exact List.Pairwise.nil
  | @cons a b as bs hab hrest ih =>
    obtain ⟨hhead, htail⟩ := List.pairwise_cons.1 hP
    refine List.pairwise_cons.2 ⟨fun b' hb' => ?_, ih htail fun c hc c' hc' =>
      hPQ c (List.mem_cons_of_mem _ hc) c' (List.mem_cons_of_mem _ hc')⟩
    obtain ⟨i, hi, rfl⟩ := List.getElem_of_mem hb'
    have hlength := hrest.length_eq
    have hi' : i < as.length := hlength ▸ hi
    exact hPQ a List.mem_cons_self _ (List.mem_cons_of_mem _ (List.getElem_mem hi')) b _ hab (hrest.get hi' hi)
      (hhead _ (List.getElem_mem hi'))

end Read

end Keyset
