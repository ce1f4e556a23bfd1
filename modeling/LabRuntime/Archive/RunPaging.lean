import LabRuntime.Archive.Paging
import LabRuntime.Lib.Utf8
import Mathlib.Data.Set.Finite.List

/-! Following the cursor of the run list to its end, while workers open boots and start runs. The
greatest key is fixed by the first page; the runs there were then are listed once each, in key
order. A boot's identity is carried as text and read back. -/

namespace LabRuntime.Archive

/-- Pages of the run list read one after the other until there is no cursor. -/
inductive RunsWalk (dbs : ℕ → Database) (limits : ℕ → ℕ) : ℕ → Option RunsCursor → List RunsPage → Prop
  | done {i cursor page} (hread : readHistoryRuns (dbs i) cursor (limits i) = .ok page) (hend : page.nextCursor = none) :
      RunsWalk dbs limits i cursor [page]
  | more {i cursor page next pages} (hread : readHistoryRuns (dbs i) cursor (limits i) = .ok page)
      (hnext : page.nextCursor = some next) (hrest : RunsWalk dbs limits (i + 1) (some next) pages) :
      RunsWalk dbs limits i cursor (page :: pages)

/-! ### Boot identities as text -/

theorem hexValue_hexDigit : ∀ n < 16, hexValue (hexDigit n) = some n := by decide

theorem hexDigit_ascii : ∀ n < 16, (hexDigit n).toNat < 128 := by decide

theorem hexPairs_hex (bytes : List UInt8) :
    hexPairs (bytes.flatMap fun b => [hexDigit (b.toNat / 16), hexDigit (b.toNat % 16)]) = some bytes := by
  induction bytes with
  | nil => rfl
  | cons b bytes ih =>
    have hb := b.toNat_lt
    have hbyte : UInt8.ofNat (b.toNat / 16 * 16 + b.toNat % 16) = b := by
      rw [Nat.div_add_mod' b.toNat 16, UInt8.ofNat_toNat]
    rw [List.flatMap_cons, List.cons_append, List.singleton_append, hexPairs, hexValue_hexDigit _ (by omega),
      hexValue_hexDigit _ (by omega), ih]
    exact congrArg (fun b => some (b :: bytes)) hbyte

/-- A boot identity is read back from its text. -/
theorem parseBootId_hexBoot {boot : List UInt8} (h : boot.length = 16) : parseBootId (hexBoot boot) = .ok boot := by
  have hascii : ∀ c ∈ boot.flatMap fun b => [hexDigit (b.toNat / 16), hexDigit (b.toNat % 16)], c.toNat < 128 := by
    intro c hc
    obtain ⟨b, -, hc⟩ := List.mem_flatMap.1 hc
    have hb := b.toNat_lt
    rcases List.mem_cons.1 hc with rfl | hc
    · exact hexDigit_ascii _ (by omega)
    · rw [List.mem_singleton.1 hc]
      exact hexDigit_ascii _ (by omega)
  have hsize : (hexBoot boot).utf8ByteSize = 32 := by
    unfold hexBoot
    rw [Utf8.utf8ByteSize_ofList, Utf8.size_ascii hascii, List.length_flatMap]
    simp [h]
  unfold parseBootId
  rw [if_neg (not_not.2 hsize)]
  unfold hexBoot
  rw [String.toList_ofList, hexPairs_hex]

/-! ### One page -/

variable {db : Database} {run : StoredRun} {upper : List UInt8 × ℕ}

/-- A stored run is summarized under its keys. -/
theorem Database.Valid.summary (h : db.Valid) (hrun : run ∈ db.runs) :
    ∃ n ≤ u64Max, run.bootId.length = 16 ∧ run.runNo = u64Blob n ∧ run.key = runKey (run.bootId, n) ∧
      run.identity = .ok (run.bootId, n) ∧
      run.summary = .ok ⟨hexBoot run.bootId, n, run.label, run.policy, run.state, run.coverage⟩ := by
  obtain ⟨hlength, n, hn, hno⟩ := h.runs run hrun
  refine ⟨n, hn, hlength, hno, ?_, ?_, ?_⟩
  · unfold StoredRun.key runKey
    rw [hno]
  · unfold StoredRun.identity readBootBlob
    rw [if_pos hlength, hno, readU64Blob_u64Blob hn]
    rfl
  · unfold StoredRun.summary readBootBlob
    rw [if_pos hlength, hno, readU64Blob_u64Blob hn]
    rfl

theorem Database.Valid.runKey_ne (h : db.Valid) (p : StoredRun → Bool) :
    (db.runs.filter p).Pairwise fun a b => a.key ≠ b.key :=
  List.Pairwise.filter p (h.runKeys.imp fun hab hkey => hab (blobKey_inj.1 hkey))

/-- The runs of an archive. -/
def Stored (db : Database) (run : StoredRun) : Prop := run ∈ db.runs

/-- What a returned page has established. -/
theorem readHistoryRuns_ok {cursor : Option RunsCursor} {limit : ℕ} {page : RunsPage} (hdb : db.Valid)
    (h : readHistoryRuns db cursor limit = .ok page) :
    ∃ bounds, runBounds db cursor = .ok bounds ∧
      ((bounds.upper = none ∧ page.runs = [] ∧ page.nextCursor = none) ∨
        ∃ upper front, bounds.upper = some upper ∧
          List.Forall₂ (fun run summary => run.summary = .ok summary) front page.runs ∧
          ((page.nextCursor = none ∧ Keyset.Page StoredRun.key (Stored db) (bounds.last.map runKey) (runKey upper) front false) ∨
            ∃ run n, front.getLast? = some run ∧ n ≤ u64Max ∧ run.key = runKey (run.bootId, n) ∧
              page.nextCursor = some ⟨db.databaseId, (run.bootId, n), upper⟩ ∧
              Keyset.Page StoredRun.key (Stored db) (bounds.last.map runKey) (runKey upper) front true)) := by
  obtain ⟨-, h⟩ := Checks.reject_bind.1 h
  obtain ⟨bounds, hbounds, h⟩ := Checks.bind_ok.1 h
  refine ⟨bounds, hbounds, ?_⟩
  cases hupper : bounds.upper with
  | none =>
    rw [hupper] at h
    cases h
    exact .inl ⟨rfl, rfl, rfl⟩
  | some upper =>
    rw [hupper] at h
    obtain ⟨filled, hfilled, h⟩ := Checks.bind_ok.1 h
    have hwindow : ∀ run, (run ∈ db.runs ∧ decide ((∀ l ∈ bounds.last.map fun key : List UInt8 × ℕ => (key.1, u64Blob key.2),
        memcmp l.1 < memcmp run.bootId ∨ (memcmp run.bootId = memcmp l.1 ∧ memcmp l.2 < memcmp run.runNo)) ∧
        (memcmp run.bootId < memcmp upper.1 ∨
          (memcmp run.bootId = memcmp upper.1 ∧ memcmp run.runNo ≤ memcmp (u64Blob upper.2)))) = true) ↔
        Keyset.Window StoredRun.key (Stored db) (bounds.last.map runKey) (runKey upper) run := by
      intro run
      rw [decide_eq_true_iff]
      refine and_congr Iff.rfl (and_congr ?_ ?_)
      · cases bounds.last with
        | none => exact ⟨fun _ => nofun, fun _ => nofun⟩
        | some key =>
          simp only [Option.map_some, Option.mem_some_iff, forall_eq']
          unfold StoredRun.key runKey
          rw [blobKey_lt, memcmp_injective.eq_iff]
          exact or_congr Iff.rfl (and_congr eq_comm Iff.rfl)
      · unfold StoredRun.key runKey
        rw [blobKey_le, memcmp_injective.eq_iff]
    obtain ⟨front, hpage, hread⟩ := fillPage_page (hdb.runKey_ne _) hwindow hfilled
    have hread' : List.Forall₂ (fun run summary => run.summary = .ok summary) front filled.rows :=
      hread.imp fun _ _ => sqlite_ok.1
    refine .inr ⟨upper, front, rfl, ?_⟩
    cases hmore : filled.hasMore with
    | false =>
      rw [hmore] at h hpage
      cases h
      exact ⟨hread', .inl ⟨rfl, hpage⟩⟩
    | true =>
      rw [hmore] at h hpage
      have hrows : filled.rows ≠ [] := by
        intro hnil
        rw [hnil] at hread'
        exact hpage.progress rfl (List.forall₂_nil_right_iff.1 hread')
      have hlast := List.getLast?_eq_some_getLast hrows
      obtain ⟨run, hrun, hsummary⟩ := Keyset.getLast?_read hread' hlast
      obtain ⟨n, hn, hlength, -, hkey, -, hsummary'⟩ := hdb.summary (hpage.mem (List.mem_of_getLast? hrun)).1
      have hsame := Except.ok.inj (hsummary'.symm.trans hsummary)
      rw [hlast, ← hsame] at h
      obtain ⟨boot, hboot, h⟩ := Checks.bind_ok.1 h
      obtain rfl : run.bootId = boot := Except.ok.inj ((parseBootId_hexBoot hlength).symm.trans hboot)
      cases h
      exact ⟨hread', .inr ⟨run, n, hrun, hn, hkey, rfl, hpage⟩⟩

/-! ### Walks -/

variable {json : LineageJson} {dbs : ℕ → Database} {limits : ℕ → ℕ}

theorem runBounds_cursor {cursor : RunsCursor} {bounds : RunBounds} (h : runBounds db (some cursor) = .ok bounds) :
    bounds = ⟨some cursor.last, some cursor.upper⟩ := by
  obtain ⟨-, h⟩ := Checks.reject_bind.1 h
  exact (Except.ok.inj h).symm

/-- The first page is bounded by the greatest key of the archive, if it holds a run. -/
theorem runBounds_first {bounds : RunBounds} (hdb : db.Valid) (h : runBounds db none = .ok bounds) :
    bounds.last = none ∧ (bounds.upper = none → db.runs = []) ∧
      ∀ upper, bounds.upper = some upper → (∀ run ∈ db.runs, run.key ≤ runKey upper) ∧ upper.1.length = 16 ∧ upper.2 ≤ u64Max := by
  obtain ⟨upper, hupper, h⟩ := Checks.bind_ok.1 h
  cases h
  have hall : db.runs.filter (fun _ => true) = db.runs := List.filter_true _
  have hlists := orderBy_lists (hdb.runKey_ne fun _ => true)
  rw [hall] at hlists
  revert hupper hlists
  generalize orderBy StoredRun.key db.runs = rows
  intro hupper hlists
  cases hlast : rows.getLast? with
  | none =>
    rw [hlast] at hupper
    cases hupper
    obtain rfl := List.getLast?_eq_none_iff.1 hlast
    refine ⟨rfl, fun _ => List.eq_nil_iff_forall_not_mem.2 fun run hrun => ?_, nofun⟩
    exact List.not_mem_nil ((hlists.mem run).2 ⟨hrun, rfl⟩)
  | some run =>
    rw [hlast] at hupper
    have hrun := ((hlists.mem run).1 (List.mem_of_getLast? hlast)).1
    obtain ⟨n, hn, hlength, -, hkey, hidentity, -⟩ := hdb.summary hrun
    unfold transpose at hupper
    dsimp only at hupper
    rw [hidentity] at hupper
    obtain rfl : some (run.bootId, n) = upper := Except.ok.inj hupper
    refine ⟨rfl, nofun, fun upper hsome => ?_⟩
    obtain rfl : (run.bootId, n) = upper := Option.some.inj hsome
    refine ⟨fun other hother => ?_, hlength, hn⟩
    -- the last run in key order has the greatest key
    obtain ⟨front, rfl⟩ := List.getLast?_eq_some_iff.1 hlast
    rcases List.mem_append.1 ((hlists.mem other).2 ⟨hother, rfl⟩) with hfront | hsame
    · exact hkey ▸ ((List.pairwise_append.1 hlists.ordered).2.2 other hfront run (by simp)).le
    · rw [List.mem_singleton.1 hsame, hkey]

/-- The pages of a walk read the runs page by page, as they are by then. -/
theorem RunsWalk.keyset (hvalid : ∀ i, (dbs i).Valid) (hcommits : ∀ i, Commits json (dbs i) (dbs (i + 1))) {i : ℕ}
    {cursor : Option RunsCursor} {pages : List RunsPage} (h : RunsWalk dbs limits i cursor pages) :
    ∃ bounds, runBounds (dbs i) cursor = .ok bounds ∧ (bounds.upper = none → pages.flatMap RunsPage.runs = []) ∧
      ∀ upper, bounds.upper = some upper → ∃ Ss stored,
        Keyset.Walk StoredRun.key (runKey upper) (bounds.last.map runKey) (Stored (dbs i) :: Ss) stored ∧
        Keyset.Grows StoredRun.key (Stored (dbs i) :: Ss) ∧ (∀ S ∈ Ss, ∃ j, S = Stored (dbs j)) ∧
        List.Forall₂ (fun run summary => run.summary = .ok summary) stored (pages.flatMap RunsPage.runs) := by
  induction h with
  | @done i cursor page hread hend =>
    obtain ⟨bounds, hbounds, hpage⟩ := readHistoryRuns_ok (hvalid i) hread
    have hflat : [page].flatMap RunsPage.runs = page.runs := List.flatMap_singleton _ _
    refine ⟨bounds, hbounds, fun hnone => ?_, fun upper hupper => ?_⟩
    · rcases hpage with ⟨-, hruns, -⟩ | ⟨_, _, hupper, -⟩
      · exact hflat.trans hruns
      · exact nomatch hnone.symm.trans hupper
    · rcases hpage with ⟨hnone, -⟩ | ⟨upper', front, hupper', hread', ⟨-, hfront⟩ | ⟨_, _, -, -, -, hcursor, -⟩⟩
      · exact nomatch hnone.symm.trans hupper
      · obtain rfl : upper' = upper := Option.some.inj (hupper'.symm.trans hupper)
        exact ⟨[], front, .done hfront, List.IsChain.singleton _, fun S hS => absurd hS List.not_mem_nil, hflat ▸ hread'⟩
      · exact nomatch hend.symm.trans hcursor
  | @more i cursor page next pages hread hnext hrest ih =>
    obtain ⟨bounds, hbounds, hpage⟩ := readHistoryRuns_ok (hvalid i) hread
    obtain ⟨bounds', hbounds', -, hwalk⟩ := ih
    rcases hpage with ⟨-, -, hnone⟩ | ⟨upper, front, hupper, hread', ⟨hnone, -⟩ | ⟨run, n, hrun, hn, hkey, hcursor, hfront⟩⟩
    · exact nomatch hnone.symm.trans hnext
    · exact nomatch hnone.symm.trans hnext
    · obtain rfl : next = _ := Option.some.inj (hnext.symm.trans hcursor)
      obtain rfl := runBounds_cursor hbounds'
      refine ⟨bounds, hbounds, fun hnone => (nomatch hnone.symm.trans hupper), fun upper' hupper' => ?_⟩
      obtain rfl : upper = upper' := Option.some.inj (hupper.symm.trans hupper')
      obtain ⟨Ss, stored, hkeyset, hgrows, hSs, hdecode⟩ := hwalk upper rfl
      refine ⟨Stored (dbs (i + 1)) :: Ss, front ++ stored, .more run hfront hrun (hkey ▸ hkeyset),
        List.IsChain.cons_cons (fun a ha => ?_) hgrows, fun S hS => ?_, ?_⟩
      · obtain ⟨b, hb, hboot, hno⟩ := (hcommits i).runs_kept ha
        exact ⟨b, hb, by unfold StoredRun.key; rw [hboot, hno]⟩
      · rcases List.mem_cons.1 hS with rfl | hS
        · exact ⟨i + 1, rfl⟩
        · exact hSs S hS
      · rw [List.flatMap_cons]
        exact List.rel_append hread' hdecode

/-- The summaries are those of stored runs in key order, none twice, and every run of the archive
is among them. -/
def ListsRuns (dbs : ℕ → Database) (summaries : List RunSummary) : Prop :=
  ∃ stored : List StoredRun, List.Forall₂ (fun run summary => run.summary = .ok summary) stored summaries ∧
    stored.Pairwise (fun a b => a.key < b.key) ∧ (∀ run ∈ stored, ∃ i, run ∈ (dbs i).runs) ∧
    ∀ run ∈ (dbs 0).runs, ∃ later ∈ stored, later.bootId = run.bootId ∧ later.runNo = run.runNo

/-- A walk from no cursor lists every run there was at its first page, each once. -/
theorem RunsWalk.lists (hdbs : (dbs 0).Valid) (hcommits : ∀ i, Commits json (dbs i) (dbs (i + 1))) {pages : List RunsPage}
    (h : RunsWalk dbs limits 0 none pages) : ListsRuns dbs (pages.flatMap RunsPage.runs) := by
  have hvalid : ∀ i, (dbs i).Valid := fun i => ((commits_later hcommits i).valid hdbs).1
  obtain ⟨bounds, hbounds, hempty, hwalk⟩ := h.keyset hvalid hcommits
  obtain ⟨hlast, hnone, hgreatest⟩ := runBounds_first hdbs hbounds
  cases hupper : bounds.upper with
  | none =>
    rw [hempty hupper]
    refine ⟨[], .nil, List.Pairwise.nil, fun run hrun => absurd hrun List.not_mem_nil, fun run hrun => ?_⟩
    rw [hnone hupper] at hrun
    exact absurd hrun List.not_mem_nil
  | some upper =>
    obtain ⟨Ss, stored, hkeyset, hgrows, hSs, hdecode⟩ := hwalk upper hupper
    rw [hlast] at hkeyset
    refine ⟨stored, hdecode, hkeyset.ordered, fun run hrun => ?_, fun run hrun => ?_⟩
    · obtain ⟨-, -, S, hS, hmem⟩ := hkeyset.sound run hrun
      rcases List.mem_cons.1 hS with rfl | hS
      · exact ⟨0, hmem⟩
      · obtain ⟨i, rfl⟩ := hSs S hS
        exact ⟨i, hmem⟩
    · obtain ⟨later, hlater, hkey⟩ := hkeyset.complete hgrows ⟨hrun, nofun, (hgreatest upper hupper).1 run hrun⟩
      exact ⟨later, hlater, blobKey_inj.1 hkey⟩

/-! ### Walks come to an end -/

/-- A page is returned when its bounds are accepted and no run is too large on its own. -/
theorem readHistoryRuns_returns {cursor : Option RunsCursor} {limit : ℕ} {bounds : RunBounds} (hdb : db.Valid)
    (hlimit : 1 ≤ limit ∧ limit ≤ 32) (hbounds : runBounds db cursor = .ok bounds)
    (hfits : ∀ run ∈ db.runs, ∀ summary, run.summary = .ok summary → summary.charge ≤ 8 * 1024) :
    ∃ page, readHistoryRuns db cursor limit = .ok page := by
  unfold readHistoryRuns
  rw [Checks.reject_pass (by omega), Checks.ok_bind, hbounds, Checks.ok_bind]
  cases hupper : bounds.upper with
  | none => exact ⟨_, rfl⟩
  | some upper =>
    dsimp only
    have hread : ∀ run ∈ selectRuns db (bounds.last.map fun key => (key.1, u64Blob key.2)) (upper.1, u64Blob upper.2) (limit + 1),
        ∃ summary, sqlite (StoredRun.summary run) = .ok summary ∧ summary.charge ≤ 8 * 1024 := by
      intro run hrun
      have hmem := List.mem_filter.1 ((List.mem_insertionSort _).1 (List.mem_of_mem_take hrun))
      obtain ⟨n, -, -, -, -, -, hsummary⟩ := hdb.summary hmem.1
      exact ⟨_, sqlite_ok.2 hsummary, hfits run hmem.1 _ hsummary⟩
    obtain ⟨filled, hfilled⟩ := fillPage_fails "whole run exceeds page budget" hlimit.1 hread [] 0 0 fun _ => rfl
    rw [hfilled, Checks.ok_bind]
    split
    · rename_i lastRun hmore hlast
      obtain ⟨front, decoded, hfront, hdecoded, hrows, -, -⟩ := fillPage_ok (Nat.zero_le _) hfilled
      rw [List.nil_append] at hrows
      obtain ⟨run, hrun, hsummary⟩ := Keyset.getLast?_read hdecoded (hrows ▸ hlast)
      have hmem := List.mem_of_mem_take (hfront.subset (List.mem_of_getLast? hrun))
      obtain ⟨n, -, hlength, -, -, -, hsummary'⟩ := hdb.summary (List.mem_filter.1 ((List.mem_insertionSort _).1 hmem)).1
      have hsame := Except.ok.inj (hsummary'.symm.trans (sqlite_ok.1 hsummary))
      rw [← hsame, parseBootId_hexBoot hlength]
      exact ⟨_, rfl⟩
    · exact ⟨_, rfl⟩

/-- There are finitely many keys. -/
theorem runKeys_finite : {k | ∃ boot n, boot.length = 16 ∧ n ≤ u64Max ∧ k = runKey (boot, n)}.Finite := by
  have : Finite UInt8 := Finite.of_injective UInt8.toFin fun _ _ h => UInt8.toFin_inj.1 h
  refine (((List.finite_length_eq UInt8 16).prod (List.finite_length_eq UInt8 8)).image
    fun pair => blobKey pair.1 pair.2).subset ?_
  rintro k ⟨boot, n, hboot, -, rfl⟩
  exact ⟨(boot, u64Blob n), ⟨hboot, BigEndian.length_bytes 8 n⟩, rfl⟩

/-- How many keys lie after one. -/
noncomputable def keysAfter (k : BlobKey) : ℕ := (runKeys_finite.toFinset.filter fun other => k < other).card

theorem keysAfter_lt {k : BlobKey} {boot : List UInt8} {n : ℕ} (hboot : boot.length = 16) (hn : n ≤ u64Max)
    (h : k < runKey (boot, n)) : keysAfter (runKey (boot, n)) < keysAfter k := by
  refine Finset.card_lt_card (Finset.ssubset_iff_of_subset ?_ |>.2 ⟨runKey (boot, n), ?_, ?_⟩)
  · intro other hother
    obtain ⟨hmem, hlt⟩ := Finset.mem_filter.1 hother
    exact Finset.mem_filter.2 ⟨hmem, h.trans hlt⟩
  · exact Finset.mem_filter.2 ⟨runKeys_finite.mem_toFinset.2 ⟨boot, n, hboot, hn, rfl⟩, h⟩
  · exact fun hmem => (Finset.mem_filter.1 hmem).2.false

/-- No run of the archives is too large for a page on its own. -/
def RunsFit (dbs : ℕ → Database) : Prop :=
  ∀ i, ∀ run ∈ (dbs i).runs, ∀ summary, run.summary = .ok summary → summary.charge ≤ 8 * 1024

/-- A continued walk comes to an end: its cursor only moves on among finitely many keys. -/
theorem runsWalk_continued (hdbs : (dbs 0).Valid) (hcommits : ∀ i, Commits json (dbs i) (dbs (i + 1)))
    (hlimits : ∀ i, 1 ≤ limits i ∧ limits i ≤ 32) (hfits : RunsFit dbs) (n i : ℕ) (cursor : RunsCursor)
    (hdatabase : cursor.databaseId = (dbs 0).databaseId) (hordered : runKey cursor.last ≤ runKey cursor.upper)
    (hn : keysAfter (runKey cursor.last) < n) : ∃ pages, RunsWalk dbs limits i (some cursor) pages := by
  induction n generalizing i cursor with
  | zero => omega
  | succ n ih =>
    have hsteps := commits_later hcommits i
    have hvalid := (hsteps.valid hdbs).1
    have hbounds : runBounds (dbs i) (some cursor) = .ok ⟨some cursor.last, some cursor.upper⟩ := by
      have haccepted : ¬ (cursor.databaseId ≠ (dbs i).databaseId ∨ runKey cursor.upper < runKey cursor.last) := by
        push Not
        exact ⟨hdatabase.trans hsteps.databaseId_eq.symm, hordered⟩
      unfold runBounds
      dsimp only
      rw [Checks.reject_pass haccepted, Checks.ok_bind]
    obtain ⟨page, hread⟩ := readHistoryRuns_returns hvalid (hlimits i) hbounds (hfits i)
    cases hnext : page.nextCursor with
    | none => exact ⟨[page], .done hread hnext⟩
    | some next =>
      obtain ⟨bounds, hbounds', hpage⟩ := readHistoryRuns_ok hvalid hread
      obtain rfl := runBounds_cursor hbounds'
      rcases hpage with ⟨hnone, -⟩ | ⟨upper, front, hupper, -, ⟨hnone, -⟩ | ⟨run, number, hrun, hnumber, hkey, hcursor, hfront⟩⟩
      · cases hnone
      · exact nomatch hnone.symm.trans hnext
      · obtain rfl : next = _ := Option.some.inj (hnext.symm.trans hcursor)
        obtain rfl : cursor.upper = upper := Option.some.inj hupper
        obtain ⟨hmem, hafter, hbelow⟩ := hfront.mem (List.mem_of_getLast? hrun)
        rw [hkey] at hafter hbelow
        have hfewer := keysAfter_lt (hvalid.runs run hmem).1 hnumber (hafter _ rfl)
        obtain ⟨pages, hwalk⟩ := ih (i + 1) ⟨(dbs i).databaseId, (run.bootId, number), cursor.upper⟩ hsteps.databaseId_eq hbelow
          (by dsimp only; omega)
        exact ⟨page :: pages, .more hread hnext hwalk⟩

/-- Following the cursors of the run list comes to an end. -/
theorem runsWalk_ends (hdbs : (dbs 0).Valid) (hcommits : ∀ i, Commits json (dbs i) (dbs (i + 1)))
    (hlimits : ∀ i, 1 ≤ limits i ∧ limits i ≤ 32) (hfits : RunsFit dbs) : ∃ pages, RunsWalk dbs limits 0 none pages := by
  obtain ⟨bounds, hbounds⟩ : ∃ bounds, runBounds (dbs 0) none = .ok bounds := by
    unfold runBounds
    dsimp only
    cases hlast : (orderBy StoredRun.key (dbs 0).runs).getLast? with
    | none => exact ⟨_, rfl⟩
    | some run =>
      have hmem := (List.mem_insertionSort _).1 (List.mem_of_getLast? hlast)
      obtain ⟨n, -, -, -, -, hidentity, -⟩ := hdbs.summary hmem
      unfold transpose
      dsimp only
      rw [hidentity]
      exact ⟨_, rfl⟩
  obtain ⟨page, hread⟩ := readHistoryRuns_returns hdbs (hlimits 0) hbounds (hfits 0)
  cases hnext : page.nextCursor with
  | none => exact ⟨[page], .done hread hnext⟩
  | some next =>
    obtain ⟨bounds', hbounds', hpage⟩ := readHistoryRuns_ok hdbs hread
    rcases hpage with ⟨-, -, hnone⟩ | ⟨upper, front, hupper, -, ⟨hnone, -⟩ | ⟨run, number, hrun, hnumber, hkey, hcursor, hfront⟩⟩
    · exact nomatch hnone.symm.trans hnext
    · exact nomatch hnone.symm.trans hnext
    · obtain rfl : next = _ := Option.some.inj (hnext.symm.trans hcursor)
      obtain ⟨hmem, -, hbelow⟩ := hfront.mem (List.mem_of_getLast? hrun)
      rw [hkey] at hbelow
      obtain ⟨pages, hwalk⟩ := runsWalk_continued hdbs hcommits hlimits hfits _ 1 ⟨(dbs 0).databaseId, (run.bootId, number), upper⟩
        rfl hbelow (Nat.lt_succ_self _)
      exact ⟨page :: pages, .more hread hnext hwalk⟩

/-- Whatever is committed between the pages, a query followed from no cursor returns exactly the
rows in range at the watermark of its first page, in order of publication, and the run list every
run there was at its first page, in key order; both come to an end. -/
theorem paging_exactly_once (json : LineageJson) (parser : LossParser) (dbs : ℕ → Database) (limits : ℕ → ℕ)
    (hdbs : Reachable json (dbs 0)) (hcommits : ∀ i, Commits json (dbs i) (dbs (i + 1))) :
    (∀ filter : HistoryFilter,
      (∀ pages, HistoryWalk json parser filter dbs limits 0 none pages →
        ∃ boot watermark, parseBootId filter.bootId = .ok boot ∧ readCheckpoint (dbs 0) boot = .ok watermark ∧
          (∀ page ∈ pages, page.watermark = watermark) ∧
          ListsRange json filter boot watermark (dbs 0) (pages.flatMap HistoryPage.rows)) ∧
      (∀ boot, Served json parser filter dbs limits boot → ∃ pages, HistoryWalk json parser filter dbs limits 0 none pages)) ∧
    (∀ pages, RunsWalk dbs limits 0 none pages → ListsRuns dbs (pages.flatMap RunsPage.runs)) ∧
    ((∀ i, 1 ≤ limits i ∧ limits i ≤ 32) → RunsFit dbs → ∃ pages, RunsWalk dbs limits 0 none pages) := by
  have hvalid := hdbs.valid
  refine ⟨fun filter => ⟨fun pages h => ?_, fun boot h => ?_⟩, fun pages h => ?_, fun hlimits hfits => ?_⟩
  · exact h.lists hvalid hcommits
  · exact walk_ends hdbs hcommits h
  · exact h.lists hvalid hcommits
  · exact runsWalk_ends hvalid hcommits hlimits hfits

/-! ### A run with three readings, one of them stored between the pages -/

def sampleBoot : List UInt8 := List.replicate 16 7

def sampleReading (time : ℕ) : MeasurementFact :=
  { sequence := 1
    sample := { signal := ⟨2, 1⟩, unit := .celsius, time := time, freshnessTime := time,
                reading := .good (.float sampleNumber) }
    generation := 1, revision := 1, stateRevision := none, lineage := none }

def sampleRun : StoredRun := ⟨sampleBoot, u64Blob 1, "heat", "best_effort", "active", "open"⟩

def sampleFilter : HistoryFilter := ⟨hexBoot sampleBoot, 1, 2, 1, 0, 100⟩

/-- The rows of some readings, numbered on. -/
def sampleRows (times : List ℕ) (sequence : ℕ) : List MeasurementColumns :=
  match assignRows sampleJson sampleBoot 1 (times.map fun time => some (sampleReading time)) sequence with
  | .ok (rows, _) => rows
  | .error _ => []

def sampleBefore : Database := ⟨"db", [sampleRun], [], sampleRows [40, 20] 1, [⟨sampleBoot, u64Blob 3⟩]⟩

def sampleAfter : Database :=
  ⟨"db", [sampleRun], [], sampleRows [40, 20] 1 ++ sampleRows [30] 3, [⟨sampleBoot, u64Blob 4⟩]⟩

def sampleArchives : ℕ → Database
  | 0 => sampleBefore
  | _ + 1 => sampleAfter

theorem sampleReading_typed (time : ℕ) : (sampleReading time).Typed :=
  ⟨(by decide : 2 ≤ u64Max), (by decide : 1 ≤ u64Max), celsius_typed,
    (by decide : 1 ≤ u64Max), (by decide : 1 ≤ u64Max), nofun, nofun⟩

theorem sampleRows_eq (times : List ℕ) (sequence : ℕ)
    (h : ((assignRows sampleJson sampleBoot 1 (times.map fun time => some (sampleReading time)) sequence).toOption.map
      Prod.snd) = some (sequence + times.length)) :
    assignRows sampleJson sampleBoot 1 (times.map fun time => some (sampleReading time)) sequence =
      .ok (sampleRows times sequence, sequence + times.length) := by
  unfold sampleRows
  cases hrows : assignRows sampleJson sampleBoot 1 (times.map fun time => some (sampleReading time)) sequence with
  | error e =>
    rw [hrows] at h
    cases h
  | ok result =>
    obtain ⟨rows, through⟩ := result
    rw [hrows] at h
    obtain rfl : through = sequence + times.length := Option.some.inj h
    rfl

theorem sampleReadings_typed {times : List ℕ} : ∀ m, some m ∈ times.map (fun time => some (sampleReading time)) → m.Typed := by
  intro m hm
  obtain ⟨time, -, heq⟩ := List.mem_map.1 hm
  exact Option.some.inj heq ▸ sampleReading_typed time

theorem sampleArchives_commits (i : ℕ) : Commits sampleJson (sampleArchives i) (sampleArchives (i + 1)) := by
  cases i with
  | zero =>
    exact .single (@Commit.facts sampleJson sampleBefore sampleBoot _ _ _ _ _ rfl (by decide) sampleReadings_typed
      (sampleRows_eq [30] 3 (by decide +kernel)))
  | succ i => exact .refl

theorem sampleArchives_reachable : Reachable sampleJson (sampleArchives 0) := by
  have hopen : Commit sampleJson (.created "db") ⟨"db", [], [], [], [⟨sampleBoot, u64Blob 0⟩]⟩ :=
    @Commit.openBoot sampleJson _ sampleBoot [] id (by decide) (fun c hc => absurd hc List.not_mem_nil) fun _ => ⟨rfl, rfl⟩
  have hstart : Commit sampleJson ⟨"db", [], [], [], [⟨sampleBoot, u64Blob 0⟩]⟩
      ⟨"db", [sampleRun], [], [], [⟨sampleBoot, u64Blob 1⟩]⟩ :=
    @Commit.startRun sampleJson _ sampleBoot 1 0 1 [] sampleRun rfl (by decide)
      ⟨rfl, rfl, by decide⟩ fun other hother => absurd hother List.not_mem_nil
  have hfacts : Commit sampleJson ⟨"db", [sampleRun], [], [], [⟨sampleBoot, u64Blob 1⟩]⟩ sampleBefore :=
    @Commit.facts sampleJson ⟨"db", [sampleRun], [], [], [⟨sampleBoot, u64Blob 1⟩]⟩ sampleBoot _ _ _ _ _ rfl (by decide)
      sampleReadings_typed (sampleRows_eq [40, 20] 1 (by decide +kernel))
  exact ⟨"db", ((Relation.ReflTransGen.single hopen).tail hstart).tail hfacts⟩

/-- The second page leaves out the reading stored after the first. -/
theorem sample_paging :
    (∃ pages, HistoryWalk sampleJson (fun _ => none) sampleFilter sampleArchives (fun _ => 1) 0 none pages ∧
      ∃ boot watermark, parseBootId sampleFilter.bootId = .ok boot ∧ readCheckpoint sampleBefore boot = .ok watermark ∧
        (∀ page ∈ pages, page.watermark = watermark) ∧
        ListsRange sampleJson sampleFilter boot watermark sampleBefore (pages.flatMap HistoryPage.rows)) ∧
    ∃ pages, RunsWalk sampleArchives (fun _ => 1) 0 none pages ∧ ListsRuns sampleArchives (pages.flatMap RunsPage.runs) := by
  obtain ⟨hhistory, hruns, -⟩ := paging_exactly_once sampleJson (fun _ => none) sampleArchives (fun _ => 1)
    sampleArchives_reachable sampleArchives_commits
  constructor
  · cases hfirst : readHistoryMeasurements sampleJson (fun _ => none) (sampleArchives 0) sampleFilter none 1 with
    | error e =>
      have : (readHistoryMeasurements sampleJson (fun _ => none) (sampleArchives 0) sampleFilter none 1).isOk = true := by
        decide +kernel
      rw [hfirst] at this
      cases this
    | ok first =>
      have hcursor : ((readHistoryMeasurements sampleJson (fun _ => none) (sampleArchives 0) sampleFilter none 1).toOption.map
          HistoryPage.nextCursor) = some (some ⟨sampleFilter, "db", 3, (20, 3), (40, 2)⟩) := by decide +kernel
      rw [hfirst] at hcursor
      have hnext := Option.some.inj hcursor
      cases hsecond : readHistoryMeasurements sampleJson (fun _ => none) (sampleArchives 1) sampleFilter
          (some ⟨sampleFilter, "db", 3, (20, 3), (40, 2)⟩) 1 with
      | error e =>
        have : (readHistoryMeasurements sampleJson (fun _ => none) (sampleArchives 1) sampleFilter
            (some ⟨sampleFilter, "db", 3, (20, 3), (40, 2)⟩) 1).isOk = true := by decide +kernel
        rw [hsecond] at this
        cases this
      | ok second =>
        have hlast : ((readHistoryMeasurements sampleJson (fun _ => none) (sampleArchives 1) sampleFilter
            (some ⟨sampleFilter, "db", 3, (20, 3), (40, 2)⟩) 1).toOption.map HistoryPage.nextCursor) = some none := by
          decide +kernel
        rw [hsecond] at hlast
        have hwalk : HistoryWalk sampleJson (fun _ => none) sampleFilter sampleArchives (fun _ => 1) 0 none [first, second] :=
          .more hfirst hnext (.done hsecond (Option.some.inj hlast))
        exact ⟨_, hwalk, (hhistory sampleFilter).1 _ hwalk⟩
  · cases hfirst : readHistoryRuns (sampleArchives 0) none 1 with
    | error e =>
      have : (readHistoryRuns (sampleArchives 0) none 1).isOk = true := by decide +kernel
      rw [hfirst] at this
      cases this
    | ok page =>
      have hlast : ((readHistoryRuns (sampleArchives 0) none 1).toOption.map RunsPage.nextCursor) = some none := by
        decide +kernel
      rw [hfirst] at hlast
      have hwalk : RunsWalk sampleArchives (fun _ => 1) 0 none [page] := .done hfirst (Option.some.inj hlast)
      exact ⟨_, hwalk, hruns _ hwalk⟩

end LabRuntime.Archive
