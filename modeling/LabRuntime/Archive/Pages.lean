import LabRuntime.Archive.Commits

/-! One page of an ordered query: the rows that `ORDER BY`, `LIMIT` and the byte budget leave are a
front of the selected rows in key order, and the row left over says that more follow. Blob keys of
valid rows are ordered as their numbers. -/

namespace LabRuntime.Archive

section Queries

variable {α ρ : Type} {key : α → BlobKey}

/-- An ordered query lists what it selects, each once. -/
theorem orderBy_lists {rows : List α} {p : α → Bool}
    (hdistinct : (rows.filter p).Pairwise fun a b => key a ≠ key b) :
    Keyset.Lists key (fun a => a ∈ rows ∧ p a = true) (orderBy key (rows.filter p)) := by
  have hperm : (orderBy key (rows.filter p)).Perm (rows.filter p) := List.perm_insertionSort _ _
  have hsorted : (orderBy key (rows.filter p)).Pairwise fun a b => key a ≤ key b :=
    @List.pairwise_insertionSort _ (fun a b => key a ≤ key b) _ ⟨fun a b => le_total (key a) (key b)⟩
      ⟨fun _ _ _ => le_trans⟩ _
  have hne : (orderBy key (rows.filter p)).Pairwise fun a b => key a ≠ key b :=
    hperm.symm.pairwise hdistinct fun h => h.symm
  refine ⟨(hsorted.and hne).imp fun h => lt_of_le_of_ne h.1 h.2, fun a => ?_⟩
  rw [hperm.mem_iff, List.mem_filter]

variable {read : α → Except StorageError ρ} {charge : ρ → ℕ} {limit budget : ℕ} {oversized : StorageError}

/-- A filled page holds a front of what was offered, decoded row by row. -/
theorem fillPage_ok {page : FilledPage ρ} {xs : List α} :
    ∀ {rows : List ρ} {bytes selected : ℕ}, rows.length ≤ limit →
      fillPage read charge limit budget oversized xs rows bytes selected = .ok page →
      ∃ front decoded, front <+: xs ∧ List.Forall₂ (fun a row => read a = .ok row) front decoded ∧
        page.rows = rows ++ decoded ∧ (page.hasMore = true → page.rows ≠ []) ∧
        (page.hasMore = false → front = xs ∧ page.rows.length ≤ limit) := by
  induction xs with
  | nil =>
    intro rows bytes selected hlimit h
    cases h
    exact ⟨[], [], List.prefix_rfl, .nil, (List.append_nil _).symm, nofun, fun _ => ⟨rfl, hlimit⟩⟩
  | cons a rest ih =>
    intro rows bytes selected hlimit h
    rw [fillPage] at h
    obtain ⟨row, hrow, h⟩ := Checks.bind_ok.1 h
    by_cases hfull : rows.length = limit ∨ budget < bytes + charge row
    · rw [if_pos hfull] at h
      split_ifs at h with hempty
      cases h
      exact ⟨[], [], List.nil_prefix, .nil, (List.append_nil _).symm, fun _ hnil =>
        hempty (List.length_eq_zero_iff.2 hnil), nofun⟩
    · rw [if_neg hfull] at h
      push Not at hfull
      have hroom : (rows ++ [row]).length ≤ limit := by
        rw [List.length_append, List.length_singleton]
        exact lt_of_le_of_ne hlimit hfull.1
      obtain ⟨front, decoded, hfront, hread, hrows, hmore, hend⟩ := ih hroom h
      refine ⟨a :: front, row :: decoded, List.cons_prefix_cons.2 ⟨rfl, hfront⟩, .cons hrow hread, ?_, hmore, fun hno => ?_⟩
      · rw [hrows, List.append_assoc, List.singleton_append]
      · exact ⟨by rw [(hend hno).1], (hend hno).2⟩

/-- A page is refused only when its first row is too large on its own. -/
theorem fillPage_fails {xs : List α} (oversized : String) (hlimit : 1 ≤ limit)
    (hread : ∀ a ∈ xs, ∃ row, read a = .ok row ∧ charge row ≤ budget) :
    ∀ (rows : List ρ) (bytes selected : ℕ), (rows = [] → bytes = 0) →
      ∃ page, fillPage read charge limit budget oversized xs rows bytes selected = .ok page := by
  induction xs with
  | nil => exact fun _ _ _ _ => ⟨_, rfl⟩
  | cons a rest ih =>
    intro rows bytes selected hbytes
    obtain ⟨row, hrow, hfits⟩ := hread a List.mem_cons_self
    rw [fillPage, hrow, Checks.ok_bind]
    by_cases hfull : rows.length = limit ∨ budget < bytes + charge row
    · rw [if_pos hfull]
      by_cases hempty : rows.length = 0
      · -- the first row alone is within the limit and the budget
        have := hbytes (List.length_eq_zero_iff.1 hempty)
        omega
      · exact ⟨_, if_neg hempty⟩
    · rw [if_neg hfull]
      exact ih (fun b hb => hread b (List.mem_cons_of_mem _ hb)) _ _ _ fun h => absurd h (by simp)

/-- What a query with one row of lookahead fills is a page of the rows it selects. -/
theorem fillPage_page {rows : List α} {p : α → Bool} {S : α → Prop} {last : Option BlobKey} {upper : BlobKey}
    {page : FilledPage ρ} (hdistinct : (rows.filter p).Pairwise fun a b => key a ≠ key b)
    (hwindow : ∀ a, (a ∈ rows ∧ p a = true) ↔ Keyset.Window key S last upper a)
    (h : fillPage read charge limit budget oversized ((orderBy key (rows.filter p)).take (limit + 1)) [] 0 0 = .ok page) :
    ∃ front, Keyset.Page key S last upper front page.hasMore ∧
      List.Forall₂ (fun a row => read a = .ok row) front page.rows := by
  obtain ⟨front, decoded, hfront, hread, hrows, hmore, hend⟩ := fillPage_ok (Nat.zero_le _) h
  rw [List.nil_append] at hrows
  have hlists := orderBy_lists hdistinct
  refine ⟨front, ⟨⟨orderBy key (rows.filter p), ⟨hlists.ordered, fun a => (hlists.mem a).trans (hwindow a)⟩,
    hfront.trans (List.take_prefix _ _), fun hno => ?_⟩, fun hyes hnil => ?_⟩, hrows ▸ hread⟩
  · -- nothing was left over, so the lookahead was not used up
    obtain ⟨hall, hlimit⟩ := hend hno
    have hlength : front.length = page.rows.length := hrows ▸ hread.length_eq
    have htake : (orderBy key (rows.filter p)).length ≤ limit + 1 := by
      by_contra hlong
      rw [hall, List.length_take] at hlength
      omega
    rw [hall, List.take_of_length_le htake]
  · refine hmore hyes (hrows ▸ ?_)
    exact List.length_eq_zero_iff.1 (hread.length_eq ▸ List.length_eq_zero_iff.2 hnil)

end Queries

theorem sqlite_ok {α : Type} {x : Except RowError α} {a : α} : sqlite x = .ok a ↔ x = .ok a := by
  cases x with
  | error e => exact ⟨nofun, nofun⟩
  | ok b => exact ⟨fun h => congrArg _ (Except.ok.inj h), fun h => congrArg _ (Except.ok.inj h)⟩

/-! ### Keys -/

theorem memcmp_injective : Function.Injective memcmp :=
  List.map_injective_iff.2 fun _ _ h => UInt8.toNat_inj.1 h

theorem blobKey_inj {a b c d : List UInt8} : blobKey a b = blobKey c d ↔ a = c ∧ b = d := by
  unfold blobKey
  rw [toLex_inj, Prod.mk.injEq, memcmp_injective.eq_iff, memcmp_injective.eq_iff]

theorem memcmp_u64_lt {m n : ℕ} (hm : m ≤ u64Max) (hn : n ≤ u64Max) : memcmp (u64Blob m) < memcmp (u64Blob n) ↔ m < n :=
  BigEndian.bytes_lt_iff (u64_lt hm) (u64_lt hn)

theorem memcmp_u64_le {m n : ℕ} (hm : m ≤ u64Max) (hn : n ≤ u64Max) : memcmp (u64Blob m) ≤ memcmp (u64Blob n) ↔ m ≤ n := by
  rw [← not_lt, memcmp_u64_lt hn hm, not_lt]

theorem blobKey_lt {a b c d : List UInt8} : blobKey a b < blobKey c d ↔ memcmp a < memcmp c ∨ (a = c ∧ memcmp b < memcmp d) := by
  unfold blobKey
  rw [Prod.Lex.toLex_lt_toLex, memcmp_injective.eq_iff]

theorem blobKey_le {a b c d : List UInt8} : blobKey a b ≤ blobKey c d ↔ memcmp a < memcmp c ∨ (a = c ∧ memcmp b ≤ memcmp d) := by
  unfold blobKey
  rw [Prod.Lex.toLex_le_toLex, memcmp_injective.eq_iff]

/-- Keys of numbers are compared as pairs of numbers. -/
theorem numberKey_lt {a b c d : ℕ} (ha : a ≤ u64Max) (hb : b ≤ u64Max) (hc : c ≤ u64Max) (hd : d ≤ u64Max) :
    blobKey (u64Blob a) (u64Blob b) < blobKey (u64Blob c) (u64Blob d) ↔ toLex (a, b) < toLex (c, d) := by
  rw [blobKey_lt, Prod.Lex.toLex_lt_toLex, memcmp_u64_lt ha hc, memcmp_u64_lt hb hd]
  exact or_congr Iff.rfl (and_congr ⟨u64Blob_injective ha hc, congrArg _⟩ Iff.rfl)

theorem numberKey_le {a b c d : ℕ} (ha : a ≤ u64Max) (hb : b ≤ u64Max) (hc : c ≤ u64Max) (hd : d ≤ u64Max) :
    blobKey (u64Blob a) (u64Blob b) ≤ blobKey (u64Blob c) (u64Blob d) ↔ toLex (a, b) ≤ toLex (c, d) := by
  rw [← not_lt, numberKey_lt hc hd ha hb, not_lt]

end LabRuntime.Archive
