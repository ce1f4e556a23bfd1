import LabRuntime.Archive.Pages

/-! Following the cursor of a measurement query to its end, while the workers go on committing:
the rows come once each, in order of publication. The watermark and the last key are fixed by the
first page and only carried by the cursor; commits add rows above the watermark. -/

namespace LabRuntime.Archive

/-- Pages read one after the other until there is no cursor; the archive and the page limit may
be others at every page. -/
inductive HistoryWalk (json : LineageJson) (parser : LossParser) (filter : HistoryFilter) (dbs : ℕ → Database)
    (limits : ℕ → ℕ) : ℕ → Option HistoryCursor → List HistoryPage → Prop
  | done {i cursor page} (hread : readHistoryMeasurements json parser (dbs i) filter cursor (limits i) = .ok page)
      (hend : page.nextCursor = none) : HistoryWalk json parser filter dbs limits i cursor [page]
  | more {i cursor page next pages}
      (hread : readHistoryMeasurements json parser (dbs i) filter cursor (limits i) = .ok page)
      (hnext : page.nextCursor = some next) (hrest : HistoryWalk json parser filter dbs limits (i + 1) (some next) pages) :
      HistoryWalk json parser filter dbs limits i cursor (page :: pages)

/-- A row of the boot, run and signal, published in the range and covered by the watermark. -/
structure InRange (filter : HistoryFilter) (boot : List UInt8) (watermark : ℕ) (db : Database) (c : MeasurementColumns) :
    Prop where
  stored : c ∈ db.measurements
  boot : c.bootId = .blob boot
  runNo : c.runNo = .blob (u64Blob filter.runNo)
  instrument : c.instrumentId = .blob (u64Blob filter.instrument)
  parameter : c.parameterId = .blob (u64Blob filter.parameter)
  times : ∃ published sequence, c.publishedAt = .blob (u64Blob published) ∧ c.recordSeq = .blob (u64Blob sequence) ∧
    filter.fromTime ≤ published ∧ published < filter.toTime ∧ sequence ≤ watermark

/-- The rows are the decoded columns of exactly what is in range, in order and none twice. -/
def ListsRange (json : LineageJson) (filter : HistoryFilter) (boot : List UInt8) (watermark : ℕ) (db : Database)
    (rows : List MeasurementRow) : Prop :=
  (∃ columns : List MeasurementColumns, (∀ c, c ∈ columns ↔ InRange filter boot watermark db c) ∧ columns.Nodup ∧
    List.Forall₂ (fun c row => decodeMeasurementRow json c.selected = .ok row) columns rows) ∧
  rows.Pairwise fun a b => toLex (a.publishedAt, a.recordSequence) < toLex (b.publishedAt, b.recordSequence)

/-- The rows all pages of one walk are read from. -/
def Selected (filter : HistoryFilter) (boot : List UInt8) (watermark : ℕ) (upper : ℕ × ℕ) (db : Database)
    (c : MeasurementColumns) : Prop :=
  c ∈ db.measurements ∧ (filter.blobs boot).Matches c ∧ numberKey (filter.fromTime, 0) < c.key ∧ c.key ≤ numberKey upper ∧
    memcmp c.recordSeq.bytes ≤ memcmp (u64Blob watermark)

theorem RowStored.numbers {db : Database} {c : MeasurementColumns} (h : RowStored db c) :
    ∃ published sequence, c.publishedAt = .blob (u64Blob published) ∧ c.recordSeq = .blob (u64Blob sequence) ∧
      published ≤ u64Max ∧ 1 ≤ sequence ∧ sequence ≤ u64Max ∧ c.key = numberKey (published, sequence) := by
  obtain ⟨boot, published, sequence, through, -, hp, hs, hpub, hone, hle, hmax, -⟩ := h.keys
  refine ⟨published, sequence, hp, hs, hpub, hone, hle.trans hmax, ?_⟩
  unfold MeasurementColumns.key numberKey
  rw [hp, hs]
  rfl

theorem getU64_blob {row : List Cell} {index n m : ℕ} (h : row[index]? = some (.blob (u64Blob n))) (hn : n ≤ u64Max)
    (hread : getU64 row index = .ok m) : m = n :=
  Except.ok.inj (hread.symm.trans (getU64_of h hn))

/-- A decoded row has the numbers its columns are ordered by. -/
theorem decodeMeasurementRow_numbers {json : LineageJson} {c : MeasurementColumns} {row : MeasurementRow}
    {published sequence : ℕ} (hp : c.publishedAt = .blob (u64Blob published)) (hs : c.recordSeq = .blob (u64Blob sequence))
    (hpub : published ≤ u64Max) (hseq : sequence ≤ u64Max) (h : decodeMeasurementRow json c.selected = .ok row) :
    row.publishedAt = published ∧ row.recordSequence = sequence := by
  unfold decodeMeasurementRow at h
  obtain ⟨_, -, h⟩ := Checks.bind_ok.1 h
  obtain ⟨recordSequence, hrecord, h⟩ := Checks.bind_ok.1 h
  obtain ⟨publishedAt, hpublished, h⟩ := Checks.bind_ok.1 h
  obtain ⟨_, -, h⟩ := Checks.bind_ok.1 h
  obtain ⟨_, -, h⟩ := Checks.bind_ok.1 h
  obtain ⟨_, -, h⟩ := Checks.bind_ok.1 h
  obtain ⟨_, -, h⟩ := Checks.bind_ok.1 h
  obtain ⟨_, -, h⟩ := Checks.bind_ok.1 h
  obtain ⟨_, -, h⟩ := Checks.bind_ok.1 h
  obtain ⟨_, -, h⟩ := Checks.bind_ok.1 h
  obtain ⟨_, -, h⟩ := Checks.bind_ok.1 h
  obtain ⟨_, -, h⟩ := Checks.bind_ok.1 h
  cases h
  exact ⟨getU64_blob (by unfold MeasurementColumns.selected; rw [hp]; rfl) hpub hpublished,
    getU64_blob (by unfold MeasurementColumns.selected; rw [hs]; rfl) hseq hrecord⟩

/-- Rows of one boot have different keys. -/
theorem Database.Valid.key_ne {db : Database} (h : db.Valid) {f : FilterBlobs} {p : MeasurementColumns → Bool}
    (hp : ∀ c, p c = true → f.Matches c) :
    (db.measurements.filter p).Pairwise fun a b => a.key ≠ b.key := by
  refine List.pairwise_filter.2 (List.Pairwise.imp_of_mem (fun {a b} ha hb hab hpa hpb hkey => hab ⟨?_, ?_⟩) h.distinct)
  · exact (hp a hpa).1.trans (hp b hpb).1.symm
  · obtain ⟨_, _, _, hs, -, -, -, -⟩ := (h.rows a ha).numbers
    obtain ⟨_, _, _, hs', -, -, -, -⟩ := (h.rows b hb).numbers
    have hbytes := (blobKey_inj.1 hkey).2
    rw [hs, hs'] at hbytes ⊢
    exact congrArg Cell.blob hbytes

/-- The rows a page takes from those after `last` and not above `upper`. -/
def filledRows (json : LineageJson) (db : Database) (filter : HistoryFilter) (boot : List UInt8) (watermark : ℕ)
    (last : Option (ℕ × ℕ)) (upper : ℕ × ℕ) (loss : Option HistoryLoss) (limit : ℕ) :
    Except StorageError (FilledPage MeasurementRow) :=
  fillPage (fun c => sqlite (decodeMeasurementRow json c.selected)) MeasurementRow.charge limit
    (8 * 1024 - 512 - lossCharge loss) "whole history row exceeds page budget"
    (selectMeasurements db (filter.blobs boot) (startKey (u64Blob filter.fromTime) last) (numberKey upper) (u64Blob watermark) (limit + 1))
    [] 0 0

def boundsOf (db : Database) (filter : HistoryFilter) (boot : List UInt8) (current : ℕ) (cursor : Option HistoryCursor) :
    Except StorageError PageBounds :=
  pageBounds db filter (filter.blobs boot) (u64Blob filter.fromTime) (u64Blob filter.toTime) current cursor

/-- The page made of what was filled. -/
structure PageOf (filter : HistoryFilter) (db : Database) (watermark : ℕ) (upper : ℕ × ℕ)
    (filled : FilledPage MeasurementRow) (page : HistoryPage) : Prop where
  rows : page.rows = filled.rows
  last : filled.hasMore = false → page.nextCursor = none
  more : filled.hasMore = true → ∀ row, filled.rows.getLast? = some row →
    page.nextCursor = some ⟨filter, db.databaseId, watermark, (row.publishedAt, row.recordSequence), upper⟩
  carried : ∀ next, page.nextCursor = some next → next.watermark = watermark

/-- What a returned page has established. -/
theorem readHistoryMeasurements_ok {json : LineageJson} {parser : LossParser} {db : Database} {filter : HistoryFilter}
    {cursor : Option HistoryCursor} {limit : ℕ} {page : HistoryPage}
    (h : readHistoryMeasurements json parser db filter cursor limit = .ok page) :
    ∃ boot current bounds loss, parseBootId filter.bootId = .ok boot ∧ filter.toTime ≤ u64Max ∧
      filter.fromTime < filter.toTime ∧ readCheckpoint db boot = .ok current ∧
      boundsOf db filter boot current cursor = .ok bounds ∧ page.watermark = bounds.watermark ∧
      ((bounds.upper = none ∧ page.rows = [] ∧ page.nextCursor = none) ∨
        ∃ upper filled, bounds.upper = some upper ∧
          filledRows json db filter boot bounds.watermark bounds.last upper loss limit = .ok filled ∧
          PageOf filter db bounds.watermark upper filled page) := by
  unfold readHistoryMeasurements at h
  obtain ⟨hlimits, h⟩ := Checks.reject_bind.1 h
  obtain ⟨boot, hboot, h⟩ := Checks.bind_ok.1 h
  obtain ⟨fromBlob, hfrom, h⟩ := Checks.bind_ok.1 h
  obtain ⟨toBlob, hto, h⟩ := Checks.bind_ok.1 h
  unfold durationBlob at hfrom hto
  split_ifs at hfrom hto with hfromMax htoMax
  cases hfrom
  cases hto
  obtain ⟨⟨coverage, loss⟩, -, h⟩ := Checks.bind_ok.1 h
  obtain ⟨current, hcurrent, h⟩ := Checks.bind_ok.1 h
  obtain ⟨bounds, hbounds, h⟩ := Checks.bind_ok.1 h
  push Not at hlimits
  refine ⟨boot, current, bounds, loss, hboot, not_lt.1 htoMax, hlimits.2.2, hcurrent, hbounds, ?_⟩
  cases hupper : bounds.upper with
  | none =>
    rw [hupper] at h
    cases h
    exact ⟨rfl, .inl ⟨rfl, rfl, rfl⟩⟩
  | some upper =>
    rw [hupper] at h
    obtain ⟨filled, hfilled, h⟩ := Checks.bind_ok.1 h
    have hpage : page.watermark = bounds.watermark ∧ PageOf filter db bounds.watermark upper filled page := by
      cases hmore : filled.hasMore with
      | false =>
        rw [hmore] at h
        cases h
        exact ⟨rfl, rfl, fun _ => rfl, fun hyes => (nomatch hmore.symm.trans hyes), nofun⟩
      | true =>
        cases hlast : filled.rows.getLast? with
        | none =>
          rw [hmore, hlast] at h
          cases h
          exact ⟨rfl, rfl, fun hno => (nomatch hmore.symm.trans hno), fun _ row hrow => (nomatch hlast.symm.trans hrow),
            nofun⟩
        | some row =>
          rw [hmore, hlast] at h
          cases h
          refine ⟨rfl, rfl, fun hno => (nomatch hmore.symm.trans hno), fun _ row' hrow => ?_,
            fun next hnext => (Option.some.inj hnext ▸ rfl)⟩
          rw [Option.some.inj (hlast.symm.trans hrow)]
    exact ⟨hpage.1, .inr ⟨upper, filled, rfl, hfilled, hpage.2⟩⟩

/-- A filled page is one page of the selected rows. -/
theorem filledRows_page {json : LineageJson} {db : Database} {filter : HistoryFilter} {boot : List UInt8} {watermark limit : ℕ}
    {last : Option (ℕ × ℕ)} {upper : ℕ × ℕ} {loss : Option HistoryLoss} {filled : FilledPage MeasurementRow}
    (hdb : db.Valid) (hlast : ∀ k ∈ last, numberKey (filter.fromTime, 0) < numberKey k)
    (h : filledRows json db filter boot watermark last upper loss limit = .ok filled) :
    ∃ front, Keyset.Page MeasurementColumns.key (Selected filter boot watermark upper db) (last.map numberKey)
        (numberKey upper) front filled.hasMore ∧
      List.Forall₂ (fun c row => decodeMeasurementRow json c.selected = .ok row) front filled.rows := by
  have hwindow : ∀ c, (c ∈ db.measurements ∧ decide ((filter.blobs boot).Matches c ∧ startKey (u64Blob filter.fromTime) last < c.key ∧
      c.key ≤ numberKey upper ∧ memcmp c.recordSeq.bytes ≤ memcmp (u64Blob watermark)) = true) ↔
      Keyset.Window MeasurementColumns.key (Selected filter boot watermark upper db) (last.map numberKey) (numberKey upper) c := by
    intro c
    rw [decide_eq_true_iff]
    unfold Keyset.Window Selected startKey
    cases last with
    | none =>
      exact ⟨fun ⟨hmem, hmatch, hlow, hhigh, hseq⟩ => ⟨⟨hmem, hmatch, hlow, hhigh, hseq⟩, nofun, hhigh⟩,
        fun ⟨⟨hmem, hmatch, hlow, hhigh, hseq⟩, _, _⟩ => ⟨hmem, hmatch, hlow, hhigh, hseq⟩⟩
    | some key =>
      refine ⟨fun ⟨hmem, hmatch, hlow, hhigh, hseq⟩ => ⟨⟨hmem, hmatch, (hlast key rfl).trans hlow, hhigh, hseq⟩, ?_, hhigh⟩,
        fun ⟨⟨hmem, hmatch, _, hhigh, hseq⟩, hlow, _⟩ => ⟨hmem, hmatch, hlow _ rfl, hhigh, hseq⟩⟩
      intro k hk
      exact Option.some.inj hk ▸ hlow
  obtain ⟨front, hpage, hread⟩ := fillPage_page (hdb.key_ne fun c hc => (of_decide_eq_true hc).1) hwindow h
  exact ⟨front, hpage, hread.imp fun _ _ => sqlite_ok.1⟩

/-! ### Walks -/

section Walks

variable {json : LineageJson} {parser : LossParser} {filter : HistoryFilter} {dbs : ℕ → Database} {limits : ℕ → ℕ}

/-- A continued page is bounded by its cursor. -/
theorem boundsOf_cursor {db : Database} {boot : List UInt8} {current : ℕ} {cursor : HistoryCursor} {bounds : PageBounds}
    (h : boundsOf db filter boot current (some cursor) = .ok bounds) :
    bounds = ⟨cursor.watermark, some cursor.last, some cursor.upper⟩ := by
  obtain ⟨-, h⟩ := Checks.reject_bind.1 h
  exact (Except.ok.inj h).symm

/-- A selected row is decoded with the numbers of its key. -/
theorem Selected.key_eq {db : Database} {boot : List UInt8} {watermark : ℕ} {upper : ℕ × ℕ} {c : MeasurementColumns}
    {row : MeasurementRow} (hdb : db.Valid) (h : Selected filter boot watermark upper db c)
    (hrow : decodeMeasurementRow json c.selected = .ok row) :
    c.key = numberKey (row.publishedAt, row.recordSequence) ∧ row.publishedAt ≤ u64Max ∧ row.recordSequence ≤ u64Max := by
  obtain ⟨published, sequence, hp, hs, hpub, -, hseq, hkey⟩ := (hdb.rows c h.1).numbers
  obtain ⟨rfl, rfl⟩ := decodeMeasurementRow_numbers hp hs hpub hseq hrow
  exact ⟨hkey, hpub, hseq⟩

/-- A page with rows left over ends with a row, and its cursor points there. -/
theorem PageOf.cursor {db : Database} {watermark : ℕ} {upper : ℕ × ℕ} {filled : FilledPage MeasurementRow} {page : HistoryPage}
    {front : List MeasurementColumns} (h : PageOf filter db watermark upper filled page) (hmore : filled.hasMore = true)
    (hne : front ≠ [])
    (hdecode : List.Forall₂ (fun c row => decodeMeasurementRow json c.selected = .ok row) front filled.rows) :
    ∃ c row, front.getLast? = some c ∧ decodeMeasurementRow json c.selected = .ok row ∧
      page.nextCursor = some ⟨filter, db.databaseId, watermark, (row.publishedAt, row.recordSequence), upper⟩ := by
  have hrows : filled.rows ≠ [] := by
    intro hnil
    rw [hnil] at hdecode
    exact hne (List.forall₂_nil_right_iff.1 hdecode)
  obtain ⟨c, hc, hrow⟩ := Keyset.getLast?_read hdecode (List.getLast?_eq_some_getLast hrows)
  exact ⟨c, _, hc, hrow, h.more hmore _ (List.getLast?_eq_some_getLast hrows)⟩

/-- A page that ends with a cursor is a page of the selected rows with more to come; the cursor
points at its last row. -/
theorem readHistoryMeasurements_more {db : Database} {cursor : Option HistoryCursor} {limit : ℕ} {page : HistoryPage}
    {next : HistoryCursor} (hdb : db.Valid) (h : readHistoryMeasurements json parser db filter cursor limit = .ok page)
    (hnext : page.nextCursor = some next) :
    ∃ boot current bounds upper, parseBootId filter.bootId = .ok boot ∧ filter.toTime ≤ u64Max ∧
      filter.fromTime < filter.toTime ∧ readCheckpoint db boot = .ok current ∧
      boundsOf db filter boot current cursor = .ok bounds ∧ page.watermark = bounds.watermark ∧
      bounds.upper = some upper ∧ next.watermark = bounds.watermark ∧
      ((∀ k ∈ bounds.last, numberKey (filter.fromTime, 0) < numberKey k) →
        ∃ front c, Keyset.Page MeasurementColumns.key (Selected filter boot bounds.watermark upper db)
            (bounds.last.map numberKey) (numberKey upper) front true ∧ front.getLast? = some c ∧
          List.Forall₂ (fun c row => decodeMeasurementRow json c.selected = .ok row) front page.rows ∧
          c.key = numberKey next.last ∧ next.last.1 ≤ u64Max ∧ next.last.2 ≤ u64Max ∧
          next = ⟨filter, db.databaseId, bounds.watermark, next.last, upper⟩) := by
  obtain ⟨boot, current, bounds, loss, hboot, hto, hfrom, hcurrent, hbounds, hmark, hpage⟩ := readHistoryMeasurements_ok h
  rcases hpage with ⟨-, -, hnone⟩ | ⟨upper, filled, hupper, hfilled, hof⟩
  · exact nomatch hnone.symm.trans hnext
  refine ⟨boot, current, bounds, upper, hboot, hto, hfrom, hcurrent, hbounds, hmark, hupper, hof.carried next hnext,
    fun hlast => ?_⟩
  have hmore : filled.hasMore = true := by
    cases hmore : filled.hasMore with
    | true => rfl
    | false => exact nomatch (hof.last hmore).symm.trans hnext
  obtain ⟨front, hfront, hdecode⟩ := filledRows_page hdb hlast hfilled
  rw [hmore] at hfront
  obtain ⟨c, row, hc, hrow, hnext'⟩ := hof.cursor hmore (hfront.progress rfl) hdecode
  obtain rfl : next = _ := Option.some.inj (hnext.symm.trans hnext')
  obtain ⟨hkey, hp, hs⟩ := (hfront.mem (List.mem_of_getLast? hc)).1.key_eq hdb hrow
  exact ⟨front, c, hfront, hc, hof.rows ▸ hdecode, hkey, hp, hs, rfl⟩

/-- The pages of a walk with fixed bounds read the selected rows page by page. -/
theorem HistoryWalk.keyset (hvalid : ∀ i, (dbs i).Valid) {i : ℕ} {cursor : Option HistoryCursor} {pages : List HistoryPage}
    (h : HistoryWalk json parser filter dbs limits i cursor pages) :
    ∃ boot current bounds, parseBootId filter.bootId = .ok boot ∧ readCheckpoint (dbs i) boot = .ok current ∧
      boundsOf (dbs i) filter boot current cursor = .ok bounds ∧ filter.toTime ≤ u64Max ∧
      filter.fromTime < filter.toTime ∧ (∀ page ∈ pages, page.watermark = bounds.watermark) ∧
      (bounds.upper = none → pages.flatMap HistoryPage.rows = []) ∧
      ∀ upper, bounds.upper = some upper → (∀ k ∈ bounds.last, numberKey (filter.fromTime, 0) < numberKey k) →
        ∃ Ss columns, Keyset.Walk MeasurementColumns.key (numberKey upper) (bounds.last.map numberKey) Ss columns ∧
          List.Forall₂ (fun c row => decodeMeasurementRow json c.selected = .ok row) columns (pages.flatMap HistoryPage.rows) ∧
          ∀ S ∈ Ss, ∃ j, S = Selected filter boot bounds.watermark upper (dbs j) := by
  induction h with
  | @done i cursor page hread hend =>
    obtain ⟨boot, current, bounds, loss, hboot, hto, hfrom, hcurrent, hbounds, hmark, hpage⟩ := readHistoryMeasurements_ok hread
    have hflat : [page].flatMap HistoryPage.rows = page.rows := List.flatMap_singleton _ _
    refine ⟨boot, current, bounds, hboot, hcurrent, hbounds, hto, hfrom, fun p hp => List.mem_singleton.1 hp ▸ hmark,
      fun hnone => ?_, fun upper hupper hlast => ?_⟩
    · rcases hpage with ⟨-, hrows, -⟩ | ⟨upper, filled, hupper, -, -⟩
      · exact hflat.trans hrows
      · exact nomatch hnone.symm.trans hupper
    · rcases hpage with ⟨hnone, -, -⟩ | ⟨upper', filled, hupper', hfilled, hof⟩
      · exact nomatch hnone.symm.trans hupper
      · obtain rfl : upper' = upper := Option.some.inj (hupper'.symm.trans hupper)
        obtain ⟨front, hfront, hdecode⟩ := filledRows_page (hvalid i) hlast hfilled
        have hmore : filled.hasMore = false := by
          cases hmore : filled.hasMore with
          | false => rfl
          | true =>
            -- a page with rows left over has a last row, hence a cursor
            obtain ⟨_, _, -, -, hcursor⟩ := hof.cursor hmore (hfront.progress hmore) hdecode
            exact nomatch hend.symm.trans hcursor
        rw [hmore] at hfront
        exact ⟨_, front, .done hfront, by rw [hflat, hof.rows]; exact hdecode, fun S hS => ⟨i, List.mem_singleton.1 hS⟩⟩
  | @more i cursor page next pages hread hnext hrest ih =>
    obtain ⟨boot, current, bounds, upper, hboot, hto, hfrom, hcurrent, hbounds, hmark, hupper, hcarried, hpage⟩ :=
      readHistoryMeasurements_more (hvalid i) hread hnext
    obtain ⟨boot', current', bounds', hboot', -, hbounds', -, -, hmarks, -, hwalk⟩ := ih
    obtain rfl : boot' = boot := Except.ok.inj (hboot'.symm.trans hboot)
    have hcursor := boundsOf_cursor hbounds'
    refine ⟨boot', current, bounds, hboot, hcurrent, hbounds, hto, hfrom, ?_, fun hnone => ?_, fun upper' hupper' hlast => ?_⟩
    · intro p hp
      rcases List.mem_cons.1 hp with rfl | hp
      · exact hmark
      · rw [hmarks p hp, hcursor]
        exact hcarried
    · exact nomatch hnone.symm.trans hupper
    · obtain rfl : upper = upper' := Option.some.inj (hupper.symm.trans hupper')
      obtain ⟨front, c, hfront, hc, hdecode, hkey, -, -, hnextEq⟩ := hpage hlast
      have hselected := (hfront.mem (List.mem_of_getLast? hc)).1
      have hupperEq : next.upper = upper := congrArg HistoryCursor.upper hnextEq
      subst hcursor
      obtain ⟨Ss, columns, hkeyset, hread', hSs⟩ := hwalk upper (congrArg some hupperEq) (by
        intro k hk
        cases hk
        exact hkey ▸ hselected.2.2.1)
      refine ⟨Selected filter boot' bounds.watermark upper (dbs i) :: Ss, front ++ columns, .more c hfront hc ?_, ?_, ?_⟩
      · rw [hkey]
        exact hkeyset
      · rw [List.flatMap_cons]
        exact List.rel_append hdecode hread'
      · intro S hS
        rcases List.mem_cons.1 hS with rfl | hS
        · exact ⟨i, rfl⟩
        · obtain ⟨j, hj⟩ := hSs S hS
          exact ⟨j, hcarried ▸ hj⟩

/-! ### The first page -/

variable {db : Database} {boot : List UInt8} {watermark : ℕ} {upper : ℕ × ℕ} {c : MeasurementColumns}

/-- What the first query looks among. -/
theorem inRange_iff (hdb : db.Valid) (hfrom : filter.fromTime < filter.toTime) (hto : filter.toTime ≤ u64Max)
    (hmark : watermark ≤ u64Max) :
    (c ∈ db.measurements ∧ decide ((filter.blobs boot).Matches c ∧
      memcmp (u64Blob filter.fromTime) ≤ memcmp c.publishedAt.bytes ∧
      memcmp c.publishedAt.bytes < memcmp (u64Blob filter.toTime) ∧
      memcmp c.recordSeq.bytes ≤ memcmp (u64Blob watermark)) = true) ↔ InRange filter boot watermark db c := by
  rw [decide_eq_true_iff]
  constructor
  · rintro ⟨hmem, ⟨hboot, hrun, hinstrument, hparameter⟩, hlow, hhigh, hseq⟩
    obtain ⟨published, sequence, hp, hs, hpub, -, hmax, -⟩ := (hdb.rows c hmem).numbers
    rw [hp] at hlow hhigh
    rw [hs] at hseq
    exact ⟨hmem, hboot, hrun, hinstrument, hparameter, published, sequence, hp, hs,
      (memcmp_u64_le (hfrom.le.trans hto) hpub).1 hlow, (memcmp_u64_lt hpub hto).1 hhigh, (memcmp_u64_le hmax hmark).1 hseq⟩
  · intro h
    obtain ⟨published, sequence, hp, hs, hlow, hhigh, hseq⟩ := h.times
    refine ⟨h.stored, ⟨h.boot, h.runNo, h.instrument, h.parameter⟩, ?_⟩
    rw [hp, hs]
    exact ⟨(memcmp_u64_le (hfrom.le.trans hto) (hhigh.le.trans hto)).2 hlow, (memcmp_u64_lt (hhigh.le.trans hto) hto).2 hhigh,
      (memcmp_u64_le (hseq.trans hmark) hmark).2 hseq⟩

/-- The numbers of a row in range. -/
theorem InRange.numbers (hdb : db.Valid) (hto : filter.toTime ≤ u64Max) (h : InRange filter boot watermark db c) :
    ∃ published sequence, c.publishedAt = .blob (u64Blob published) ∧ c.recordSeq = .blob (u64Blob sequence) ∧
      published ≤ u64Max ∧ 1 ≤ sequence ∧ sequence ≤ u64Max ∧ c.key = numberKey (published, sequence) ∧
      filter.fromTime ≤ published ∧ published < filter.toTime := by
  obtain ⟨published, sequence, hp, hs, hpub, hone, hmax, hkey⟩ := (hdb.rows c h.stored).numbers
  obtain ⟨published', -, hp', -, hlow, hhigh, -⟩ := h.times
  obtain rfl := u64Blob_injective (hhigh.le.trans hto) hpub (Cell.blob.inj (hp'.symm.trans hp))
  exact ⟨published', sequence, hp, hs, hpub, hone, hmax, hkey, hlow, hhigh⟩

theorem identity_ok {k : ℕ × ℕ} {published sequence : ℕ} (hp : c.publishedAt = .blob (u64Blob published))
    (hs : c.recordSeq = .blob (u64Blob sequence)) (hpub : published ≤ u64Max) (hseq : sequence ≤ u64Max) :
    c.identity = .ok k ↔ k = (published, sequence) := by
  unfold MeasurementColumns.identity
  rw [getU64_of (by rw [hp]; rfl) hpub, getU64_of (by rw [hs]; rfl) hseq]
  exact ⟨fun h => (Except.ok.inj h).symm, fun h => h ▸ rfl⟩

/-- The first page is bounded by the greatest key in range, if there is any. -/
theorem boundsOf_first {current : ℕ} {bounds : PageBounds} (hdb : db.Valid) (hfrom : filter.fromTime < filter.toTime)
    (hto : filter.toTime ≤ u64Max) (hmark : current ≤ u64Max)
    (h : boundsOf db filter boot current none = .ok bounds) :
    bounds.watermark = current ∧ bounds.last = none ∧
      ((bounds.upper = none ∧ ∀ c, ¬ InRange filter boot current db c) ∨
        ∃ c published sequence, InRange filter boot current db c ∧ bounds.upper = some (published, sequence) ∧
          published < filter.toTime ∧ sequence ≤ u64Max ∧
          ∀ other, InRange filter boot current db other → other.key ≤ numberKey (published, sequence)) := by
  obtain ⟨upper, hupper, h⟩ := Checks.bind_ok.1 h
  cases h
  refine ⟨rfl, rfl, ?_⟩
  have hlists := orderBy_lists (hdb.key_ne (f := filter.blobs boot) (p := fun c => decide ((filter.blobs boot).Matches c ∧
      memcmp (u64Blob filter.fromTime) ≤ memcmp c.publishedAt.bytes ∧
      memcmp c.publishedAt.bytes < memcmp (u64Blob filter.toTime) ∧
      memcmp c.recordSeq.bytes ≤ memcmp (u64Blob current))) fun c hc => (of_decide_eq_true hc).1)
  have hmem := fun c => (hlists.mem c).trans (inRange_iff hdb hfrom hto hmark)
  unfold selectUpper at hupper
  revert hlists hmem hupper
  generalize orderBy MeasurementColumns.key (db.measurements.filter _) = rows
  intro hupper hlists hmem
  cases hlast : rows.getLast? with
  | none =>
    rw [hlast] at hupper
    cases hupper
    obtain rfl := List.getLast?_eq_none_iff.1 hlast
    exact .inl ⟨rfl, fun c hc => nomatch (hmem c).2 hc⟩
  | some c =>
    rw [hlast] at hupper
    have hc := (hmem c).1 (List.mem_of_getLast? hlast)
    obtain ⟨published, sequence, hp, hs, hpub, -, hseq, hkey, -, hhigh⟩ := hc.numbers hdb hto
    have hidentity := (identity_ok hp hs hpub hseq).2 rfl
    unfold transpose at hupper
    dsimp only at hupper
    rw [hidentity] at hupper
    obtain rfl : some (published, sequence) = upper := Except.ok.inj hupper
    refine .inr ⟨c, published, sequence, hc, rfl, hhigh, hseq, fun other hother => ?_⟩
    -- the last row in key order has the greatest key
    obtain ⟨front, rfl⟩ := List.getLast?_eq_some_iff.1 hlast
    rcases List.mem_append.1 ((hmem other).2 hother) with hfront | hsame
    · exact hkey ▸ ((List.pairwise_append.1 hlists.ordered).2.2 other hfront c (by simp)).le
    · rw [List.mem_singleton.1 hsame, hkey]

/-- With the first page's bounds, what is selected is what is in range. -/
theorem selected_iff (hdb : db.Valid) (hfrom : filter.fromTime < filter.toTime) (hto : filter.toTime ≤ u64Max)
    (hmark : watermark ≤ u64Max) {published sequence : ℕ} (hpub : published < filter.toTime) (hseq : sequence ≤ u64Max)
    (hmax : ∀ other, InRange filter boot watermark db other → other.key ≤ numberKey (published, sequence)) :
    Selected filter boot watermark (published, sequence) db c ↔ InRange filter boot watermark db c := by
  have hfromMax := hfrom.le.trans hto
  have hpubMax := hpub.le.trans hto
  constructor
  · rintro ⟨hmem, hmatch, hlow, hhigh, hbound⟩
    obtain ⟨at', number, hp, hs, hat, -, hnumber, hkey⟩ := (hdb.rows c hmem).numbers
    rw [hkey] at hlow hhigh
    have hlow' := (numberKey_lt hfromMax (Nat.zero_le _) hat hnumber).1 hlow
    have hhigh' := (numberKey_le hat hnumber hpubMax hseq).1 hhigh
    rw [Prod.Lex.toLex_lt_toLex] at hlow'
    rw [Prod.Lex.toLex_le_toLex] at hhigh'
    rw [hs] at hbound
    refine ⟨hmem, hmatch.1, hmatch.2.1, hmatch.2.2.1, hmatch.2.2.2, at', number, hp, hs, ?_, ?_,
      (memcmp_u64_le hnumber hmark).1 hbound⟩ <;> dsimp only at hlow' hhigh' <;> omega
  · intro h
    have hfound := (inRange_iff hdb hfrom hto hmark).2 h
    obtain ⟨hmatch, -, -, hbound⟩ := of_decide_eq_true hfound.2
    obtain ⟨at', number, hp, hs, hat, hone, hnumber, hkey, hlow, -⟩ := h.numbers hdb hto
    refine ⟨h.stored, hmatch, ?_, hmax c h, hbound⟩
    rw [hkey]
    refine (numberKey_lt hfromMax (Nat.zero_le _) hat hnumber).2 ?_
    rw [Prod.Lex.toLex_lt_toLex]
    dsimp only
    omega

/-! ### All pages -/

theorem readCheckpoint_ok {current : ℕ} (hdb : db.Valid) (h : readCheckpoint db boot = .ok current) :
    current ≤ u64Max ∧ db.checkpoint boot = some ⟨boot, u64Blob current⟩ := by
  unfold readCheckpoint at h
  cases hfound : db.checkpoint boot with
  | none =>
    unfold Database.checkpoint at hfound
    rw [hfound] at h
    cases h
  | some stored =>
    obtain ⟨hmem, hboot⟩ := checkpoint_mem hfound
    obtain ⟨through, hmax, hblob⟩ := hdb.checkpoints stored hmem
    unfold Database.checkpoint at hfound
    rw [hfound] at h
    dsimp only at h
    rw [hblob, readU64Blob_u64Blob hmax] at h
    cases h
    refine ⟨hmax, congrArg some ?_⟩
    rw [← hboot, ← hblob]

theorem readCheckpoint_of {current : ℕ} (hmax : current ≤ u64Max) (h : db.checkpoint boot = some ⟨boot, u64Blob current⟩) :
    readCheckpoint db boot = .ok current := by
  unfold Database.checkpoint at h
  unfold readCheckpoint
  rw [h]
  dsimp only
  rw [readU64Blob_u64Blob hmax]
  rfl

theorem commits_later (hcommits : ∀ i, Commits json (dbs i) (dbs (i + 1))) (j : ℕ) : Commits json (dbs 0) (dbs j) := by
  induction j with
  | zero => exact .refl
  | succ j ih => exact ih.trans (hcommits j)

/-- Every page of a walk is read from the same rows. -/
theorem selected_settled {db' : Database} {current : ℕ} (hdb : db.Valid) (hsteps : Commits json db db')
    (hcurrent : current ≤ u64Max) (hboot : db.checkpoint boot = some ⟨boot, u64Blob current⟩) :
    Selected filter boot current upper db' c ↔ Selected filter boot current upper db c := by
  have hdb' := (hsteps.valid hdb).1
  have hsettled {sequence : ℕ} (hmatch : (filter.blobs boot).Matches c) (hs : c.recordSeq = .blob (u64Blob sequence))
      (hmax : sequence ≤ u64Max) (hbound : memcmp c.recordSeq.bytes ≤ memcmp (u64Blob current)) :
      c ∈ db'.measurements ↔ c ∈ db.measurements := by
    rw [hs] at hbound
    exact hsteps.settled hdb hboot hcurrent le_rfl hmatch.1 hs ((memcmp_u64_le hmax hcurrent).1 hbound)
  constructor
  · rintro ⟨hmem, hmatch, hlow, hhigh, hbound⟩
    obtain ⟨_, _, -, hs, -, -, hmax, -⟩ := (hdb'.rows c hmem).numbers
    exact ⟨(hsettled hmatch hs hmax hbound).1 hmem, hmatch, hlow, hhigh, hbound⟩
  · rintro ⟨hmem, hmatch, hlow, hhigh, hbound⟩
    obtain ⟨_, _, -, hs, -, -, hmax, -⟩ := (hdb.rows c hmem).numbers
    exact ⟨(hsettled hmatch hs hmax hbound).2 hmem, hmatch, hlow, hhigh, hbound⟩

theorem selected_inj {d : MeasurementColumns} (hdb : db.Valid) (hc : Selected filter boot watermark upper db c)
    (hd : Selected filter boot watermark upper db d) (hkey : c.key = d.key) : c = d := by
  have hpair := hdb.key_ne (f := filter.blobs boot) (p := fun c => decide ((filter.blobs boot).Matches c))
    fun c hc => of_decide_eq_true hc
  have : Std.Symm fun a b : MeasurementColumns => a.key ≠ b.key := ⟨fun _ _ h => h.symm⟩
  by_contra hne
  exact hpair.forall (List.mem_filter.2 ⟨hc.1, decide_eq_true hc.2.1⟩)
    (List.mem_filter.2 ⟨hd.1, decide_eq_true hd.2.1⟩) hne hkey

/-- A walk from no cursor reads the rows in range at its first page's watermark, each once. -/
theorem HistoryWalk.lists (hdbs : (dbs 0).Valid) (hcommits : ∀ i, Commits json (dbs i) (dbs (i + 1)))
    {pages : List HistoryPage} (h : HistoryWalk json parser filter dbs limits 0 none pages) :
    ∃ boot watermark, parseBootId filter.bootId = .ok boot ∧ readCheckpoint (dbs 0) boot = .ok watermark ∧
      (∀ page ∈ pages, page.watermark = watermark) ∧
      ListsRange json filter boot watermark (dbs 0) (pages.flatMap HistoryPage.rows) := by
  have hvalid : ∀ i, (dbs i).Valid := fun i => ((commits_later hcommits i).valid hdbs).1
  obtain ⟨boot, current, bounds, hboot, hcurrent, hbounds, hto, hfrom, hmarks, hempty, hwalk⟩ := h.keyset hvalid
  obtain ⟨hmax, hchecked⟩ := readCheckpoint_ok hdbs hcurrent
  obtain ⟨hmark, hlast, hcases⟩ := boundsOf_first hdbs hfrom hto hmax hbounds
  refine ⟨boot, current, hboot, hcurrent, hmark ▸ hmarks, ?_⟩
  rcases hcases with ⟨hnone, hno⟩ | ⟨c, published, sequence, hc, hupper, hpub, hseq, hgreatest⟩
  · rw [hempty hnone]
    exact ⟨⟨[], fun c => ⟨fun hc => (nomatch hc), fun hc => absurd hc (hno c)⟩, List.nodup_nil, .nil⟩, List.Pairwise.nil⟩
  · obtain ⟨Ss, columns, hkeyset, hdecode, hSs⟩ := hwalk _ hupper (hlast ▸ nofun)
    rw [hlast] at hkeyset
    rw [hmark] at hSs
    have hne : Ss ≠ [] := by
      cases hkeyset <;> exact List.cons_ne_nil _ _
    have hlists := hkeyset.lists hne
      (fun S hS a => by
        obtain ⟨j, rfl⟩ := hSs S hS
        exact selected_settled hdbs (commits_later hcommits j) hmax hchecked)
      fun a b ha hb => selected_inj hdbs ha hb
    have hmem : ∀ a, a ∈ columns ↔ InRange filter boot current (dbs 0) a := fun a => by
      rw [hlists.mem, ← selected_iff hdbs hfrom hto hmax hpub hseq hgreatest]
      exact ⟨fun h => h.1, fun h => ⟨h, nofun, h.2.2.2.1⟩⟩
    refine ⟨⟨columns, hmem, hlists.ordered.imp fun {a b} hlt heq => (heq ▸ hlt).false, hdecode⟩,
      Keyset.pairwise_read hdecode hlists.ordered fun a ha b hb row row' hrow hrow' hlt => ?_⟩
    obtain ⟨hkey, hp, hs⟩ := ((hlists.mem a).1 ha).1.key_eq hdbs hrow
    obtain ⟨hkey', hp', hs'⟩ := ((hlists.mem b).1 hb).1.key_eq hdbs hrow'
    rw [hkey, hkey'] at hlt
    exact (numberKey_lt hp hs hp' hs').1 hlt

/-! ### Walks come to an end -/

/-- The run's coverage can be read, and no row of the signal is too large for a page on its own. -/
def Readable (json : LineageJson) (parser : LossParser) (filter : HistoryFilter) (boot : List UInt8) (db : Database) : Prop :=
  ∃ coverage loss, readCoverage parser db boot (u64Blob filter.runNo) = .ok (coverage, loss) ∧
    ∀ c ∈ db.measurements, (filter.blobs boot).Matches c → ∀ row, decodeMeasurementRow json c.selected = .ok row →
      row.charge ≤ 8 * 1024 - 512 - lossCharge loss

/-- A page is returned when its bounds are accepted. -/
theorem readHistoryMeasurements_returns {cursor : Option HistoryCursor} {limit current : ℕ} {bounds : PageBounds}
    (hlimit : 1 ≤ limit ∧ limit ≤ MAX_RAW_PAGE) (hfrom : filter.fromTime < filter.toTime) (hto : filter.toTime ≤ u64Max)
    (hboot : parseBootId filter.bootId = .ok boot) (hreadable : Readable json parser filter boot db)
    (hdecodes : ∀ c ∈ db.measurements, ∃ row, decodeMeasurementRow json c.selected = .ok row)
    (hcurrent : readCheckpoint db boot = .ok current) (hbounds : boundsOf db filter boot current cursor = .ok bounds) :
    ∃ page, readHistoryMeasurements json parser db filter cursor limit = .ok page := by
  obtain ⟨coverage, loss, hcoverage, hfits⟩ := hreadable
  have hcoverage' : readCoverage parser db boot (filter.blobs boot).runNo = .ok (coverage, loss) := hcoverage
  unfold boundsOf at hbounds
  unfold readHistoryMeasurements
  rw [Checks.reject_pass (by push Not; exact ⟨hlimit.1, hlimit.2, hfrom⟩), Checks.ok_bind, hboot, Checks.ok_bind,
    durationBlob_ok (hfrom.le.trans hto), Checks.ok_bind, durationBlob_ok hto, Checks.ok_bind, hcoverage', Checks.ok_bind]
  dsimp only
  rw [hcurrent, Checks.ok_bind, hbounds, Checks.ok_bind]
  cases hupper : bounds.upper with
  | none => exact ⟨_, rfl⟩
  | some upper =>
    dsimp only
    have hread : ∀ c ∈ selectMeasurements db (filter.blobs boot) (startKey (u64Blob filter.fromTime) bounds.last) (numberKey upper)
        (u64Blob bounds.watermark) (limit + 1), ∃ row, sqlite (decodeMeasurementRow json c.selected) = .ok row ∧
        row.charge ≤ 8 * 1024 - 512 - lossCharge loss := by
      intro c hc
      have hmem := List.mem_filter.1 ((List.mem_insertionSort _).1 (List.mem_of_mem_take hc))
      obtain ⟨row, hrow⟩ := hdecodes c hmem.1
      exact ⟨row, by rw [hrow]; rfl, hfits c hmem.1 (of_decide_eq_true hmem.2).1 row hrow⟩
    obtain ⟨filled, hfilled⟩ := fillPage_fails "whole history row exceeds page budget" hlimit.1 hread [] 0 0 fun _ => rfl
    rw [hfilled, Checks.ok_bind]
    split <;> exact ⟨_, rfl⟩

/-- The cursor of a walk: its bounds are those of the first page. -/
structure Continues (filter : HistoryFilter) (db : Database) (boot : List UInt8) (watermark : ℕ) (cursor : HistoryCursor) :
    Prop where
  sameFilter : cursor.filter = filter
  sameDatabase : cursor.databaseId = db.databaseId
  sameWatermark : cursor.watermark = watermark
  low : numberKey (filter.fromTime, 0) < numberKey cursor.last
  ordered : toLex cursor.last ≤ toLex cursor.upper
  upperMax : cursor.upper.1 ≤ u64Max ∧ cursor.upper.2 ≤ u64Max

/-- How many rows a cursor has yet to return, at most. -/
def remaining (db : Database) (cursor : HistoryCursor) : ℕ :=
  (db.measurements.filter fun c => decide (numberKey cursor.last < c.key)).length

/-- A later archive accepts a cursor of the walk. -/
theorem Continues.accepted {db' : Database} {cursor : HistoryCursor} {current : ℕ}
    (h : Continues filter db boot watermark cursor) (hdb : db.Valid) (hmark : watermark ≤ u64Max)
    (hchecked : db.checkpoint boot = some ⟨boot, u64Blob watermark⟩) (hsteps : Commits json db db')
    (hcurrent : readCheckpoint db' boot = .ok current) :
    boundsOf db' filter boot current (some cursor) = .ok ⟨watermark, some cursor.last, some cursor.upper⟩ := by
  obtain ⟨hdb', hadv⟩ := hsteps.valid hdb
  obtain ⟨later, hle, hmax, hlater⟩ := hadv boot watermark hmark hchecked
  obtain ⟨hcurrentMax, hnow⟩ := readCheckpoint_ok hdb' hcurrent
  have hsame : later = current := u64Blob_injective hmax hcurrentMax
    (congrArg StoredCheckpoint.persistedThroughSeq (Option.some.inj (hlater.symm.trans hnow)))
  have hfits : ¬ (cursor.filter ≠ filter ∨ cursor.databaseId ≠ db'.databaseId ∨ current < cursor.watermark ∨
      toLex cursor.upper < toLex cursor.last) := by
    rintro (hbad | hbad | hbad | hbad)
    · exact hbad h.sameFilter
    · exact hbad (h.sameDatabase.trans hsteps.databaseId_eq.symm)
    · rw [h.sameWatermark] at hbad
      omega
    · exact absurd hbad (not_lt.2 h.ordered)
  unfold boundsOf pageBounds
  dsimp only
  rw [Checks.reject_pass hfits, Checks.ok_bind, h.sameWatermark]

/-- The cursor of a returned page continues the walk, at a row past where the page began. -/
theorem page_continues {db' : Database} {cursor : Option HistoryCursor} {limit : ℕ} {page : HistoryPage}
    {next : HistoryCursor} {last : Option (ℕ × ℕ)} {current : ℕ} (hdb : db.Valid) (hmark : watermark ≤ u64Max)
    (hchecked : db.checkpoint boot = some ⟨boot, u64Blob watermark⟩) (hsteps : Commits json db db')
    (hboot : parseBootId filter.bootId = .ok boot) (hcurrent : readCheckpoint db' boot = .ok current)
    (hbounds : boundsOf db' filter boot current cursor = .ok ⟨watermark, last, some upper⟩)
    (hupper : upper.1 ≤ u64Max ∧ upper.2 ≤ u64Max) (hlow : ∀ k ∈ last, numberKey (filter.fromTime, 0) < numberKey k)
    (h : readHistoryMeasurements json parser db' filter cursor limit = .ok page) (hnext : page.nextCursor = some next) :
    Continues filter db boot watermark next ∧
      ∃ c ∈ db.measurements, c.key = numberKey next.last ∧ ∀ k ∈ last, numberKey k < c.key := by
  have hdb' := (hsteps.valid hdb).1
  obtain ⟨boot', current', bounds, upper', hboot', -, -, hcurrent', hbounds', -, hupper', -, hpage⟩ :=
    readHistoryMeasurements_more hdb' h hnext
  obtain rfl : boot' = boot := Except.ok.inj (hboot'.symm.trans hboot)
  obtain rfl : current' = current := Except.ok.inj (hcurrent'.symm.trans hcurrent)
  obtain rfl : bounds = _ := Except.ok.inj (hbounds'.symm.trans hbounds)
  obtain rfl : upper = upper' := Option.some.inj hupper'
  obtain ⟨front, c, hfront, hc, -, hkey, hp, hs, hnextEq⟩ := hpage hlow
  obtain ⟨hselected, hafter, hbelow⟩ := hfront.mem (List.mem_of_getLast? hc)
  have hupperEq : next.upper = upper := congrArg HistoryCursor.upper hnextEq
  refine ⟨⟨congrArg HistoryCursor.filter hnextEq,
    (congrArg HistoryCursor.databaseId hnextEq).trans hsteps.databaseId_eq, congrArg HistoryCursor.watermark hnextEq,
    hkey ▸ hselected.2.2.1, ?_, hupperEq ▸ hupper⟩, c, ?_, hkey, fun k hk => hafter _ ?_⟩
  · rw [hkey] at hbelow
    rw [hupperEq]
    exact (numberKey_le hp hs hupper.1 hupper.2).1 hbelow
  · exact ((selected_settled hdb hsteps hmark hchecked).1 hselected).1
  · exact Option.mem_map_of_mem numberKey hk

/-- A continued walk comes to an end. -/
theorem walk_continued (hdbs : (dbs 0).Valid) (hcommits : ∀ i, Commits json (dbs i) (dbs (i + 1)))
    (hlimits : ∀ i, 1 ≤ limits i ∧ limits i ≤ MAX_RAW_PAGE) (hfrom : filter.fromTime < filter.toTime)
    (hto : filter.toTime ≤ u64Max) (hboot : parseBootId filter.bootId = .ok boot)
    (hreadable : ∀ i, Readable json parser filter boot (dbs i))
    (hdecodes : ∀ i, ∀ c ∈ (dbs i).measurements, ∃ row, decodeMeasurementRow json c.selected = .ok row)
    (hmark : watermark ≤ u64Max) (hchecked : (dbs 0).checkpoint boot = some ⟨boot, u64Blob watermark⟩)
    (n i : ℕ) (cursor : HistoryCursor) (h : Continues filter (dbs 0) boot watermark cursor)
    (hn : remaining (dbs 0) cursor < n) :
    ∃ pages, HistoryWalk json parser filter dbs limits i (some cursor) pages := by
  induction n generalizing i cursor with
  | zero => omega
  | succ n ih =>
    have hsteps := commits_later hcommits i
    obtain ⟨later, -, hmax, hlater⟩ := (hsteps.valid hdbs).2 boot watermark hmark hchecked
    have hcurrent := readCheckpoint_of hmax hlater
    have hbounds := h.accepted hdbs hmark hchecked hsteps hcurrent
    obtain ⟨page, hread⟩ := readHistoryMeasurements_returns (hlimits i) hfrom hto hboot (hreadable i) (hdecodes i) hcurrent hbounds
    cases hnext : page.nextCursor with
    | none => exact ⟨[page], .done hread hnext⟩
    | some next =>
      obtain ⟨hcontinues, c, hc, hkey, hafter⟩ := page_continues hdbs hmark hchecked hsteps hboot hcurrent hbounds h.upperMax
        (fun k hk => Option.some.inj hk ▸ h.low) hread hnext
      have hfewer : remaining (dbs 0) next < remaining (dbs 0) cursor := by
        unfold remaining
        rw [← hkey]
        exact Keyset.length_after_lt hc (hafter _ rfl)
      obtain ⟨pages, hwalk⟩ := ih (i + 1) next hcontinues (by omega)
      exact ⟨page :: pages, .more hread hnext hwalk⟩

/-- What a reader may rely on: rows that are stored are decoded, the filter names a run whose
coverage can be read and no row is too large for a page. -/
structure Served (json : LineageJson) (parser : LossParser) (filter : HistoryFilter) (dbs : ℕ → Database)
    (limits : ℕ → ℕ) (boot : List UInt8) : Prop where
  numbers : json.ShortNumbers
  lineages : ∀ input : CapturedInput, json.ReadsBack (StoredLineage.of input)
  limits : ∀ i, 1 ≤ limits i ∧ limits i ≤ MAX_RAW_PAGE
  times : filter.fromTime < filter.toTime ∧ filter.toTime ≤ u64Max
  parsed : parseBootId filter.bootId = .ok boot
  readable : ∀ i, Readable json parser filter boot (dbs i)

/-- The first page's bounds are found. -/
theorem boundsOf_none (filter : HistoryFilter) (boot : List UInt8) (current : ℕ) (hdb : db.Valid) :
    ∃ bounds, boundsOf db filter boot current none = .ok bounds := by
  obtain ⟨upper, hupper⟩ : ∃ upper, sqlite (transpose MeasurementColumns.identity (selectUpper db (filter.blobs boot)
      (u64Blob filter.fromTime) (u64Blob filter.toTime) (u64Blob current))) = .ok upper := by
    cases hselect : selectUpper db (filter.blobs boot) (u64Blob filter.fromTime) (u64Blob filter.toTime) (u64Blob current) with
    | none => exact ⟨none, rfl⟩
    | some c =>
      have hmem := (List.mem_filter.1 ((List.mem_insertionSort _).1 (List.mem_of_getLast? hselect))).1
      obtain ⟨published, sequence, hp, hs, hpub, -, hseq, -⟩ := (hdb.rows c hmem).numbers
      refine ⟨some (published, sequence), ?_⟩
      unfold transpose
      dsimp only
      rw [(identity_ok hp hs hpub hseq).2 rfl]
      rfl
  unfold boundsOf pageBounds
  dsimp only
  rw [hupper]
  exact ⟨_, rfl⟩

/-- A run that is known belongs to a boot with a checkpoint. -/
theorem checkpoint_of_run (hdb : db.Valid) {runNo : List UInt8} {coverage : String} {loss : Option HistoryLoss}
    (h : readCoverage parser db boot runNo = .ok (coverage, loss)) :
    ∃ watermark ≤ u64Max, db.checkpoint boot = some ⟨boot, u64Blob watermark⟩ := by
  unfold readCoverage at h
  cases hfind : db.runs.find? fun run => decide (run.bootId = boot ∧ run.runNo = runNo) with
  | none =>
    rw [hfind] at h
    cases h
  | some run =>
    have hfound := List.find?_some hfind
    obtain ⟨hrun, -⟩ := of_decide_eq_true hfound
    obtain ⟨c, hc, hsame⟩ := hdb.runBoots run (List.mem_of_find?_eq_some hfind)
    cases hchecked : db.checkpoint boot with
    | none =>
      have := List.find?_eq_none.1 hchecked c hc
      exact absurd (decide_eq_true (hsame.trans hrun)) this
    | some stored =>
      obtain ⟨hmem, hstored⟩ := checkpoint_mem hchecked
      obtain ⟨watermark, hmax, hblob⟩ := hdb.checkpoints stored hmem
      exact ⟨watermark, hmax, by rw [← hstored, ← hblob]⟩

/-- Following the cursors of a served query comes to an end. -/
theorem walk_ends (hdbs : Reachable json (dbs 0)) (hcommits : ∀ i, Commits json (dbs i) (dbs (i + 1)))
    (h : Served json parser filter dbs limits boot) : ∃ pages, HistoryWalk json parser filter dbs limits 0 none pages := by
  have hvalid := hdbs.valid
  have hdecodes : ∀ i, ∀ c ∈ (dbs i).measurements, ∃ row, decodeMeasurementRow json c.selected = .ok row := by
    intro i
    obtain ⟨databaseId, hcreated⟩ := hdbs
    exact Commits.decode h.numbers h.lineages (fun c hc => absurd hc List.not_mem_nil) (hcreated.trans (commits_later hcommits i))
  obtain ⟨hfrom, hto⟩ := h.times
  obtain ⟨coverage, loss, hcoverage, -⟩ := h.readable 0
  obtain ⟨watermark, hmark, hchecked⟩ := checkpoint_of_run hvalid hcoverage
  have hcurrent := readCheckpoint_of hmark hchecked
  obtain ⟨bounds, hbounds⟩ := boundsOf_none filter boot watermark hvalid
  obtain ⟨page, hread⟩ := readHistoryMeasurements_returns (h.limits 0) hfrom hto h.parsed (h.readable 0) (hdecodes 0) hcurrent hbounds
  cases hnext : page.nextCursor with
  | none => exact ⟨[page], .done hread hnext⟩
  | some next =>
    obtain ⟨boot', current', bounds', upper, hboot', -, -, hcurrent', hbounds', -, hupper, -, -⟩ :=
      readHistoryMeasurements_more hvalid hread hnext
    obtain rfl : boot' = boot := Except.ok.inj (hboot'.symm.trans h.parsed)
    obtain rfl : current' = watermark := Except.ok.inj (hcurrent'.symm.trans hcurrent)
    obtain rfl : bounds' = bounds := Except.ok.inj (hbounds'.symm.trans hbounds)
    obtain ⟨hfrozen, hlast, hcases⟩ := boundsOf_first hvalid hfrom hto hmark hbounds
    rcases hcases with ⟨hnone, -⟩ | ⟨-, published, sequence, -, hgreatest, hpub, hseq, -⟩
    · exact nomatch hnone.symm.trans hupper
    obtain rfl : bounds' = ⟨current', none, some (published, sequence)⟩ := by
      rw [← hfrozen, ← hlast, ← hgreatest]
    obtain ⟨hcontinues, -⟩ := page_continues hvalid hmark hchecked .refl h.parsed hcurrent hbounds ⟨hpub.le.trans hto, hseq⟩
      nofun hread hnext
    obtain ⟨pages, hwalk⟩ := walk_continued hvalid hcommits h.limits hfrom hto h.parsed h.readable hdecodes hmark hchecked _ 1 next
      hcontinues (Nat.lt_succ_self _)
    exact ⟨page :: pages, .more hread hnext hwalk⟩

end Walks

end LabRuntime.Archive
