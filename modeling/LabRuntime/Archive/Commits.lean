import LabRuntime.Archive.History
import LabRuntime.Archive.ReadsBack
import Mathlib.Logic.Relation

/-! What the storage workers commit to the tables, one boot after another, as far as history reads
them. Every transaction numbers its records on from its boot's checkpoint and moves the
checkpoint to the last of them, so what a checkpoint covers never changes. -/

namespace LabRuntime.Archive

/-- The checkpoint of a boot. -/
def Database.checkpoint (db : Database) (boot : List UInt8) : Option StoredCheckpoint :=
  db.checkpoints.find? fun c => c.bootId = boot

def Database.setCheckpoint (db : Database) (boot : List UInt8) (through : ℕ) : Database :=
  { db with
    checkpoints := db.checkpoints.map fun c =>
      if c.bootId = boot then { c with persistedThroughSeq := u64Blob through } else c }

/-- A validated measurement's row under its record number. -/
def storeMeasurement (json : LineageJson) (row : RowIdentity) (m : MeasurementFact) :
    Except StorageError MeasurementColumns := do
  validateStorageFact json m
  measurementColumns json row m

/-- The measurement rows of a batch of facts; every fact takes the next record number. -/
def assignRows (json : LineageJson) (boot : List UInt8) (runNo : ℕ) :
    List (Option MeasurementFact) → ℕ → Except StorageError (List MeasurementColumns × ℕ)
  | [], sequence => .ok ([], sequence)
  | fact :: facts, sequence => do
    Checks.reject (u64Max < sequence + 1) "record identity exhausted"
    let stored ← transpose (storeMeasurement json ⟨boot, sequence + 1, runNo⟩) fact
    let (rest, through) ← assignRows json boot runNo facts (sequence + 1)
    .ok (stored.toList ++ rest, through)

/-- One committed transaction of a worker. -/
inductive Commit (json : LineageJson) : Database → Database → Prop
  | facts {db boot runNo current facts rows through} (hboot : db.checkpoint boot = some ⟨boot, u64Blob current⟩)
      (hcurrent : current ≤ u64Max) (htyped : ∀ m, some m ∈ facts → m.Typed)
      (hrows : assignRows json boot runNo facts current = .ok (rows, through)) :
      Commit json db { db.setCheckpoint boot through with measurements := db.measurements ++ rows }
  /-- Operations, annotations, seals, clock facts and configuration records. -/
  | records {db boot current through intervals} (change : StoredRun → StoredRun)
      (hboot : db.checkpoint boot = some ⟨boot, u64Blob current⟩) (hthrough : current ≤ through ∧ through ≤ u64Max)
      (hkeys : ∀ run, (change run).bootId = run.bootId ∧ (change run).runNo = run.runNo) :
      Commit json db
        { db.setCheckpoint boot through with runs := db.runs.map change, intervals := intervals }
  | startRun {db boot runNo current through intervals} (run : StoredRun)
      (hboot : db.checkpoint boot = some ⟨boot, u64Blob current⟩) (hthrough : current ≤ through ∧ through ≤ u64Max)
      (hrun : run.bootId = boot ∧ run.runNo = u64Blob runNo ∧ runNo ≤ u64Max)
      (hfresh : ∀ other ∈ db.runs, ¬ (other.bootId = run.bootId ∧ other.runNo = run.runNo)) :
      Commit json db { db.setCheckpoint boot through with runs := db.runs ++ [run], intervals := intervals }
  | openBoot {db boot intervals} (change : StoredRun → StoredRun) (hlength : boot.length = 16)
      (hfresh : ∀ c ∈ db.checkpoints, c.bootId ≠ boot)
      (hkeys : ∀ run, (change run).bootId = run.bootId ∧ (change run).runNo = run.runNo) :
      Commit json db
        { db with
          checkpoints := db.checkpoints ++ [⟨boot, u64Blob 0⟩], runs := db.runs.map change, intervals := intervals }

/-- Any number of commits. -/
abbrev Commits (json : LineageJson) : Database → Database → Prop := Relation.ReflTransGen (Commit json)

def Database.created (databaseId : String) : Database := ⟨databaseId, [], [], [], []⟩

/-- An archive some workers wrote. -/
def Reachable (json : LineageJson) (db : Database) : Prop := ∃ databaseId, Commits json (.created databaseId) db

/-- A stored measurement row: its keys are numbers of the machine, its record number is taken and
covered by its boot's checkpoint. -/
structure RowStored (db : Database) (c : MeasurementColumns) : Prop where
  keys : ∃ boot published sequence through, c.bootId = .blob boot ∧ c.publishedAt = .blob (u64Blob published) ∧
    c.recordSeq = .blob (u64Blob sequence) ∧ published ≤ u64Max ∧ 1 ≤ sequence ∧ sequence ≤ through ∧
    through ≤ u64Max ∧ db.checkpoint boot = some ⟨boot, u64Blob through⟩

/-- What holds of every archive. -/
structure Database.Valid (db : Database) : Prop where
  rows : ∀ c ∈ db.measurements, RowStored db c
  distinct : db.measurements.Pairwise fun a b => ¬ (a.bootId = b.bootId ∧ a.recordSeq = b.recordSeq)
  checkpoints : ∀ c ∈ db.checkpoints, ∃ through ≤ u64Max, c.persistedThroughSeq = u64Blob through
  runs : ∀ run ∈ db.runs, run.bootId.length = 16 ∧ ∃ n ≤ u64Max, run.runNo = u64Blob n
  runKeys : db.runs.Pairwise fun a b => ¬ (a.bootId = b.bootId ∧ a.runNo = b.runNo)
  boots : ∀ c ∈ db.checkpoints, c.bootId.length = 16
  runBoots : ∀ run ∈ db.runs, ∃ c ∈ db.checkpoints, c.bootId = run.bootId

/-- Checkpoints only move on. -/
def Advances (db db' : Database) : Prop :=
  ∀ boot n, n ≤ u64Max → db.checkpoint boot = some ⟨boot, u64Blob n⟩ →
    ∃ n', n ≤ n' ∧ n' ≤ u64Max ∧ db'.checkpoint boot = some ⟨boot, u64Blob n'⟩

theorem u64Blob_injective {m n : ℕ} (hm : m ≤ u64Max) (hn : n ≤ u64Max) (h : u64Blob m = u64Blob n) : m = n :=
  BigEndian.bytes_injective (u64_lt hm) (u64_lt hn) h

theorem checkpoint_setCheckpoint (db : Database) (boot other : List UInt8) (n : ℕ) :
    (db.setCheckpoint boot n).checkpoint other =
      (db.checkpoint other).map fun c => if c.bootId = boot then { c with persistedThroughSeq := u64Blob n } else c := by
  unfold Database.setCheckpoint Database.checkpoint
  rw [List.find?_map]
  congr 2
  funext c
  simp only [Function.comp]
  split_ifs <;> rfl

theorem setCheckpoint_advances {db : Database} {boot : List UInt8} {current through : ℕ} (hcurrent : current ≤ u64Max)
    (hboot : db.checkpoint boot = some ⟨boot, u64Blob current⟩) (hle : current ≤ through) (hthrough : through ≤ u64Max) :
    Advances db (db.setCheckpoint boot through) ∧
      (db.setCheckpoint boot through).checkpoint boot = some ⟨boot, u64Blob through⟩ := by
  refine ⟨fun other n hn hother => ?_, ?_⟩
  · rw [checkpoint_setCheckpoint, hother]
    by_cases hsame : other = boot
    · subst hsame
      rw [hboot] at hother
      have hn' := u64Blob_injective hcurrent hn (congrArg StoredCheckpoint.persistedThroughSeq (Option.some.inj hother))
      exact ⟨through, hn' ▸ hle, hthrough, by simp⟩
    · exact ⟨n, le_rfl, hn, by simp [hsame]⟩
  · rw [checkpoint_setCheckpoint, hboot]
    simp

theorem RowStored.mono {db db' : Database} {c : MeasurementColumns} (h : RowStored db c) (hadv : Advances db db') :
    RowStored db' c := by
  obtain ⟨boot, published, sequence, through, hb, hp, hs, hpublished, hone, hle, hmax, hcheck⟩ := h.keys
  obtain ⟨through', hle', hmax', hcheck'⟩ := hadv boot through hmax hcheck
  exact ⟨boot, published, sequence, through', hb, hp, hs, hpublished, hone, hle.trans hle', hmax', hcheck'⟩

theorem storeMeasurement_keys {json : LineageJson} {row : RowIdentity} {m : MeasurementFact} {c : MeasurementColumns}
    (h : storeMeasurement json row m = .ok c) :
    ∃ published ≤ u64Max, c.bootId = .blob row.bootId ∧ c.publishedAt = .blob (u64Blob published) ∧
      c.recordSeq = .blob (u64Blob row.recordSequence) := by
  obtain ⟨_, -, h⟩ := Checks.bind_ok.1 h
  unfold measurementColumns at h
  obtain ⟨publishedAt, hpublished, h⟩ := Checks.bind_ok.1 h
  obtain ⟨value, -, h⟩ := Checks.bind_ok.1 h
  obtain ⟨lineage, -, h⟩ := Checks.bind_ok.1 h
  obtain ⟨observedAt, -, h⟩ := Checks.bind_ok.1 h
  cases h
  unfold durationBlob at hpublished
  split_ifs at hpublished with hlate
  cases hpublished
  exact ⟨m.sample.time, not_lt.1 hlate, rfl, rfl, rfl⟩

/-- The rows of a batch are numbered on from where it starts. -/
theorem assignRows_ok {json : LineageJson} {boot : List UInt8} {runNo : ℕ} {facts : List (Option MeasurementFact)} :
    ∀ {current through : ℕ} {rows : List MeasurementColumns}, current ≤ u64Max →
      assignRows json boot runNo facts current = .ok (rows, through) →
      current ≤ through ∧ through ≤ u64Max ∧
      (∀ c ∈ rows, ∃ published sequence, c.bootId = .blob boot ∧ c.publishedAt = .blob (u64Blob published) ∧
        c.recordSeq = .blob (u64Blob sequence) ∧ published ≤ u64Max ∧ current < sequence ∧ sequence ≤ through) ∧
      rows.Pairwise fun a b => a.recordSeq ≠ b.recordSeq := by
  induction facts with
  | nil =>
    intro current through rows hcurrent h
    cases h
    exact ⟨le_rfl, hcurrent, fun c hc => (nomatch hc), List.Pairwise.nil⟩
  | cons fact facts ih =>
    intro current through rows hcurrent h
    rw [assignRows] at h
    obtain ⟨hnext, h⟩ := Checks.reject_bind.1 h
    have hroom : current + 1 ≤ u64Max := not_lt.1 hnext
    obtain ⟨stored, hstored, h⟩ := Checks.bind_ok.1 h
    obtain ⟨⟨rest, last⟩, hrest, h⟩ := Checks.bind_ok.1 h
    cases h
    obtain ⟨hle, hmax, hrows, hdistinct⟩ := ih hroom hrest
    have later : ∀ c ∈ rest, ∃ published sequence, c.bootId = .blob boot ∧ c.publishedAt = .blob (u64Blob published) ∧
        c.recordSeq = .blob (u64Blob sequence) ∧ published ≤ u64Max ∧ current + 1 < sequence ∧ sequence ≤ through := hrows
    -- a fact that is no measurement only takes its number
    cases fact with
    | none =>
      cases hstored
      refine ⟨by omega, hmax, fun c hc => ?_, hdistinct⟩
      obtain ⟨published, sequence, hb, hp, hs, hpub, hlt, hthrough⟩ := later c hc
      exact ⟨published, sequence, hb, hp, hs, hpub, by omega, hthrough⟩
    | some m =>
      obtain ⟨columns, hcolumns, hstored⟩ := Checks.bind_ok.1 hstored
      cases hstored
      obtain ⟨published, hpub, hb, hp, hs⟩ := storeMeasurement_keys hcolumns
      refine ⟨by omega, hmax, fun c hc => ?_, ?_⟩
      · rcases List.mem_cons.1 hc with rfl | hc
        · exact ⟨published, current + 1, hb, hp, hs, hpub, by omega, hle⟩
        · obtain ⟨published', sequence, hb', hp', hs', hpub', hlt, hthrough⟩ := later c hc
          exact ⟨published', sequence, hb', hp', hs', hpub', by omega, hthrough⟩
      · refine List.pairwise_cons.2 ⟨fun c hc => ?_, hdistinct⟩
        obtain ⟨-, sequence, -, -, hs', -, hlt, hthrough⟩ := later c hc
        rw [hs, hs']
        intro heq
        have := u64Blob_injective hroom (hthrough.trans hmax) (Cell.blob.inj heq)
        omega

theorem checkpoint_mem {db : Database} {boot : List UInt8} {c : StoredCheckpoint} (h : db.checkpoint boot = some c) :
    c ∈ db.checkpoints ∧ c.bootId = boot :=
  ⟨List.mem_of_find?_eq_some h, by simpa using List.find?_some h⟩

/-- The checkpoint rows after one moved. -/
theorem setCheckpoint_rows {db : Database} {boot : List UInt8} {through : ℕ} (h : db.Valid) (hthrough : through ≤ u64Max) :
    ∀ c ∈ (db.setCheckpoint boot through).checkpoints,
      c.bootId.length = 16 ∧ ∃ n ≤ u64Max, c.persistedThroughSeq = u64Blob n := by
  intro c hc
  obtain ⟨d, hd, rfl⟩ := List.mem_map.1 hc
  have hlength := h.boots d hd
  split_ifs
  · exact ⟨hlength, through, hthrough, rfl⟩
  · exact ⟨hlength, h.checkpoints d hd⟩

theorem setCheckpoint_keeps {db : Database} {boot other : List UInt8} {through : ℕ}
    (h : ∃ c ∈ db.checkpoints, c.bootId = other) : ∃ c ∈ (db.setCheckpoint boot through).checkpoints, c.bootId = other := by
  obtain ⟨c, hc, rfl⟩ := h
  refine ⟨_, List.mem_map_of_mem hc, ?_⟩
  split_ifs <;> rfl

/-- Changing other columns of runs keeps their keys. -/
theorem runs_changed {db : Database} {change : StoredRun → StoredRun} (h : db.Valid)
    (hkeys : ∀ run, (change run).bootId = run.bootId ∧ (change run).runNo = run.runNo) :
    (∀ run ∈ db.runs.map change, run.bootId.length = 16 ∧ ∃ n ≤ u64Max, run.runNo = u64Blob n) ∧
      (db.runs.map change).Pairwise fun a b => ¬ (a.bootId = b.bootId ∧ a.runNo = b.runNo) := by
  refine ⟨fun run hrun => ?_, ?_⟩
  · obtain ⟨old, hold, rfl⟩ := List.mem_map.1 hrun
    rw [(hkeys old).1, (hkeys old).2]
    exact h.runs old hold
  · rw [List.pairwise_map]
    refine h.runKeys.imp fun {a b} hab => ?_
    rw [(hkeys a).1, (hkeys a).2, (hkeys b).1, (hkeys b).2]
    exact hab

/-- A transaction keeps the archive valid and its checkpoints advance. -/
theorem Commit.valid {json : LineageJson} {db db' : Database} (h : db.Valid) (hstep : Commit json db db') :
    db'.Valid ∧ Advances db db' := by
  cases hstep with
  | @facts boot runNo current facts rows through hboot hcurrent htyped hrows =>
    obtain ⟨hle, hmax, hstored, hdistinct⟩ := assignRows_ok hcurrent hrows
    obtain ⟨hadv, hmoved⟩ := setCheckpoint_advances hcurrent hboot hle hmax
    have hadv' : Advances db { db.setCheckpoint boot through with measurements := db.measurements ++ rows } := hadv
    refine ⟨⟨fun c hc => ?_, ?_, fun c hc => (setCheckpoint_rows h hmax c hc).2, h.runs, h.runKeys,
      fun c hc => (setCheckpoint_rows h hmax c hc).1, fun run hrun => setCheckpoint_keeps (h.runBoots run hrun)⟩, hadv'⟩
    · rcases List.mem_append.1 hc with hc | hc
      · exact (h.rows c hc).mono hadv'
      · obtain ⟨published, sequence, hb, hp, hs, hpub, hlt, hthrough⟩ := hstored c hc
        exact ⟨boot, published, sequence, through, hb, hp, hs, hpub, by omega, hthrough, hmax, hmoved⟩
    · refine List.pairwise_append.2 ⟨h.distinct, hdistinct.imp fun hne heq => hne heq.2, fun a ha b hb heq => ?_⟩
      obtain ⟨boot', published, sequence, through', hab, hap, has, -, -, hle', hmax', hcheck⟩ := (h.rows a ha).keys
      obtain ⟨-, sequence', hbb, -, hbs, -, hlt, hthrough⟩ := hstored b hb
      have hsame : boot' = boot := Cell.blob.inj (hab.symm.trans (heq.1.trans hbb))
      subst hsame
      rw [hboot] at hcheck
      have hcurrent' := u64Blob_injective hcurrent hmax' (congrArg StoredCheckpoint.persistedThroughSeq (Option.some.inj hcheck))
      have hseq : u64Blob sequence = u64Blob sequence' := Cell.blob.inj (has.symm.trans (heq.2.trans hbs))
      have := u64Blob_injective (hle'.trans hmax') (hthrough.trans hmax) hseq
      omega
  | @records boot current through intervals change hboot hthrough hkeys =>
    obtain ⟨hadv, -⟩ := setCheckpoint_advances (hthrough.1.trans hthrough.2) hboot hthrough.1 hthrough.2
    obtain ⟨hruns, hrunKeys⟩ := runs_changed h hkeys
    have hadv' : Advances db { db.setCheckpoint boot through with runs := db.runs.map change, intervals := intervals } :=
      hadv
    refine ⟨⟨fun c hc => (h.rows c hc).mono hadv', h.distinct, fun c hc => (setCheckpoint_rows h hthrough.2 c hc).2, hruns,
      hrunKeys, fun c hc => (setCheckpoint_rows h hthrough.2 c hc).1, fun run hrun => ?_⟩, hadv'⟩
    obtain ⟨old, hold, rfl⟩ := List.mem_map.1 hrun
    exact (hkeys old).1 ▸ setCheckpoint_keeps (h.runBoots old hold)
  | @startRun boot runNo current through intervals run hboot hthrough hrun hfresh =>
    obtain ⟨hadv, -⟩ := setCheckpoint_advances (hthrough.1.trans hthrough.2) hboot hthrough.1 hthrough.2
    have hadv' : Advances db { db.setCheckpoint boot through with runs := db.runs ++ [run], intervals := intervals } := hadv
    refine ⟨⟨fun c hc => (h.rows c hc).mono hadv', h.distinct, fun c hc => (setCheckpoint_rows h hthrough.2 c hc).2,
      fun r hr => ?_, ?_, fun c hc => (setCheckpoint_rows h hthrough.2 c hc).1, fun r hr => setCheckpoint_keeps ?_⟩, hadv'⟩
    · rcases List.mem_append.1 hr with hr | hr
      · exact h.runs r hr
      · obtain rfl := List.mem_singleton.1 hr
        have hlength := h.boots _ (checkpoint_mem hboot).1
        exact ⟨hrun.1 ▸ hlength, runNo, hrun.2.2, hrun.2.1⟩
    · refine List.pairwise_append.2 ⟨h.runKeys, List.pairwise_singleton _ _, fun a ha b hb => ?_⟩
      obtain rfl := List.mem_singleton.1 hb
      exact hfresh a ha
    · rcases List.mem_append.1 hr with hr | hr
      · exact h.runBoots r hr
      · obtain rfl := List.mem_singleton.1 hr
        exact ⟨_, (checkpoint_mem hboot).1, hrun.1.symm⟩
  | @openBoot boot intervals change hlength hfresh hkeys =>
    obtain ⟨hruns, hrunKeys⟩ := runs_changed h hkeys
    have hadv : Advances db { db with
        checkpoints := db.checkpoints ++ [⟨boot, u64Blob 0⟩], runs := db.runs.map change, intervals := intervals } := by
      intro other n hn hother
      refine ⟨n, le_rfl, hn, ?_⟩
      unfold Database.checkpoint at hother ⊢
      rw [List.find?_append, hother]
      rfl
    refine ⟨⟨fun c hc => (h.rows c hc).mono hadv, h.distinct, fun c hc => ?_, hruns, hrunKeys, fun c hc => ?_,
      fun run hrun => ?_⟩, hadv⟩
    · rcases List.mem_append.1 hc with hc | hc
      · exact h.checkpoints c hc
      · obtain rfl := List.mem_singleton.1 hc
        exact ⟨0, Nat.zero_le _, rfl⟩
    · rcases List.mem_append.1 hc with hc | hc
      · exact h.boots c hc
      · obtain rfl := List.mem_singleton.1 hc
        exact hlength
    · obtain ⟨old, hold, rfl⟩ := List.mem_map.1 hrun
      obtain ⟨c, hc, hsame⟩ := h.runBoots old hold
      exact ⟨c, List.mem_append_left _ hc, hsame.trans (hkeys old).1.symm⟩

theorem Advances.refl (db : Database) : Advances db db := fun _ n hn h => ⟨n, le_rfl, hn, h⟩

theorem Advances.trans {a b c : Database} (hab : Advances a b) (hbc : Advances b c) : Advances a c := by
  intro boot n hn h
  obtain ⟨n', hle, hmax, h'⟩ := hab boot n hn h
  obtain ⟨n'', hle', hmax', h''⟩ := hbc boot n' hmax h'
  exact ⟨n'', hle.trans hle', hmax', h''⟩

theorem Commits.valid {json : LineageJson} {db db' : Database} (h : db.Valid) (hsteps : Commits json db db') :
    db'.Valid ∧ Advances db db' := by
  induction hsteps with
  | refl => exact ⟨h, Advances.refl db⟩
  | tail _ hstep ih =>
    obtain ⟨hvalid, hadv⟩ := hstep.valid ih.1
    exact ⟨hvalid, ih.2.trans hadv⟩

/-- A commit adds rows above the checkpoint of their boot only, and changes none. -/
theorem Commit.measurements {json : LineageJson} {db db' : Database} (hstep : Commit json db db') :
    ∃ new, db'.measurements = db.measurements ++ new ∧ ∀ c ∈ new, ∃ boot current sequence,
      c.bootId = .blob boot ∧ c.recordSeq = .blob (u64Blob sequence) ∧ current < sequence ∧ sequence ≤ u64Max ∧
      db.checkpoint boot = some ⟨boot, u64Blob current⟩ := by
  cases hstep with
  | @facts boot runNo current facts rows through hboot hcurrent htyped hrows =>
    obtain ⟨-, hmax, hstored, -⟩ := assignRows_ok hcurrent hrows
    refine ⟨rows, rfl, fun c hc => ?_⟩
    obtain ⟨-, sequence, hb, -, hs, -, hlt, hthrough⟩ := hstored c hc
    exact ⟨boot, current, sequence, hb, hs, hlt, hthrough.trans hmax, hboot⟩
  | records | startRun | openBoot => exact ⟨[], (List.append_nil _).symm, fun c hc => nomatch hc⟩

/-- Which rows a checkpoint covers is settled. -/
theorem Commits.settled {json : LineageJson} {db db' : Database} {boot : List UInt8} {watermark current : ℕ}
    (h : db.Valid) (hboot : db.checkpoint boot = some ⟨boot, u64Blob current⟩) (hcurrent : current ≤ u64Max)
    (hle : watermark ≤ current) (hsteps : Commits json db db') {c : MeasurementColumns} (hc : c.bootId = .blob boot)
    {sequence : ℕ} (hs : c.recordSeq = .blob (u64Blob sequence)) (hsequence : sequence ≤ watermark) :
    c ∈ db'.measurements ↔ c ∈ db.measurements := by
  induction hsteps with
  | refl => exact Iff.rfl
  | tail hsteps hstep ih =>
    obtain ⟨current', hle', hmax', hboot'⟩ := (Commits.valid h hsteps).2 boot current hcurrent hboot
    obtain ⟨new, heq, hnew⟩ := hstep.measurements
    rw [heq, List.mem_append, ih]
    refine or_iff_left fun hmem => ?_
    -- a new row of the boot is numbered above the checkpoint
    obtain ⟨other, floor, number, hb, hs', hlt, hmax, hfloor⟩ := hnew c hmem
    obtain rfl : other = boot := Cell.blob.inj (hb.symm.trans hc)
    rw [hboot'] at hfloor
    have hsame := u64Blob_injective (hsequence.trans (hle.trans hcurrent)) hmax (Cell.blob.inj (hs.symm.trans hs'))
    have hchecked : u64Blob current' = u64Blob floor := congrArg StoredCheckpoint.persistedThroughSeq (Option.some.inj hfloor)
    have := u64Blob_injective hmax' (hlt.le.trans hmax) hchecked
    omega

/-- Runs are never removed or renumbered. -/
theorem Commits.runs_kept {json : LineageJson} {db db' : Database} (hsteps : Commits json db db') {run : StoredRun}
    (hrun : run ∈ db.runs) : ∃ run' ∈ db'.runs, run'.bootId = run.bootId ∧ run'.runNo = run.runNo := by
  induction hsteps with
  | refl => exact ⟨run, hrun, rfl, rfl⟩
  | tail _ hstep ih =>
    obtain ⟨old, hold, hboot, hno⟩ := ih
    cases hstep with
    | facts => exact ⟨old, hold, hboot, hno⟩
    | records change _ _ hkeys =>
      exact ⟨change old, List.mem_map_of_mem hold, (hkeys old).1.trans hboot, (hkeys old).2.trans hno⟩
    | startRun => exact ⟨old, List.mem_append_left _ hold, hboot, hno⟩
    | openBoot change _ _ hkeys =>
      exact ⟨change old, List.mem_map_of_mem hold, (hkeys old).1.trans hboot, (hkeys old).2.trans hno⟩

theorem Commits.databaseId_eq {json : LineageJson} {db db' : Database} (hsteps : Commits json db db') :
    db'.databaseId = db.databaseId := by
  induction hsteps with
  | refl => rfl
  | tail _ hstep ih => cases hstep <;> exact ih

theorem storeMeasurement_decodes {json : LineageJson} (hjson : json.ShortNumbers)
    (hread : ∀ input : CapturedInput, json.ReadsBack (StoredLineage.of input)) {row : RowIdentity} {m : MeasurementFact}
    {c : MeasurementColumns} (htyped : m.Typed) (hsequence : row.recordSequence ≤ u64Max)
    (h : storeMeasurement json row m = .ok c) : ∃ decoded, decodeMeasurementRow json c.selected = .ok decoded := by
  obtain ⟨_, hvalid, h⟩ := Checks.bind_ok.1 h
  have htimes : m.sample.time ≤ u64Max ∧ m.sample.freshnessTime ≤ u64Max := by
    unfold measurementColumns at h
    obtain ⟨_, hpublished, h⟩ := Checks.bind_ok.1 h
    obtain ⟨_, -, h⟩ := Checks.bind_ok.1 h
    obtain ⟨_, -, h⟩ := Checks.bind_ok.1 h
    obtain ⟨_, hobserved, -⟩ := Checks.bind_ok.1 h
    unfold durationBlob at hpublished hobserved
    split_ifs at hpublished hobserved with hlate hlate'
    exact ⟨not_lt.1 hlate, not_lt.1 hlate'⟩
  obtain ⟨columns, hcolumns, -, hdecode⟩ :=
    measurementColumns_recorded hjson htyped hsequence htimes.1 htimes.2 (fun input _ => hread input) hvalid
  obtain rfl : columns = c := Except.ok.inj (hcolumns.symm.trans h)
  exact ⟨_, hdecode⟩

theorem assignRows_decode {json : LineageJson} (hjson : json.ShortNumbers)
    (hread : ∀ input : CapturedInput, json.ReadsBack (StoredLineage.of input)) {boot : List UInt8} {runNo : ℕ}
    {facts : List (Option MeasurementFact)} :
    ∀ {current through : ℕ} {rows : List MeasurementColumns}, (∀ m, some m ∈ facts → m.Typed) →
      assignRows json boot runNo facts current = .ok (rows, through) →
      ∀ c ∈ rows, ∃ decoded, decodeMeasurementRow json c.selected = .ok decoded := by
  induction facts with
  | nil =>
    intro current through rows _ h
    cases h
    exact fun c hc => nomatch hc
  | cons fact facts ih =>
    intro current through rows htyped h c hc
    rw [assignRows] at h
    obtain ⟨hnext, h⟩ := Checks.reject_bind.1 h
    obtain ⟨stored, hstored, h⟩ := Checks.bind_ok.1 h
    obtain ⟨⟨rest, last⟩, hrest, h⟩ := Checks.bind_ok.1 h
    cases h
    rcases List.mem_append.1 hc with hc | hc
    · cases fact with
      | none =>
        cases hstored
        exact nomatch hc
      | some m =>
        obtain ⟨columns, hcolumns, hstored⟩ := Checks.bind_ok.1 hstored
        cases hstored
        obtain rfl := List.mem_singleton.1 hc
        exact storeMeasurement_decodes hjson hread (htyped m List.mem_cons_self) (not_lt.1 hnext) hcolumns
    · exact ih (fun m hm => htyped m (List.mem_cons_of_mem _ hm)) hrest c hc

/-- Every stored row is decoded. -/
theorem Commits.decode {json : LineageJson} (hjson : json.ShortNumbers)
    (hread : ∀ input : CapturedInput, json.ReadsBack (StoredLineage.of input)) {db db' : Database}
    (h : ∀ c ∈ db.measurements, ∃ decoded, decodeMeasurementRow json c.selected = .ok decoded)
    (hsteps : Commits json db db') : ∀ c ∈ db'.measurements, ∃ decoded, decodeMeasurementRow json c.selected = .ok decoded := by
  induction hsteps with
  | refl => exact h
  | tail _ hstep ih =>
    cases hstep with
    | facts _ _ htyped hrows =>
      intro c hc
      rcases List.mem_append.1 hc with hc | hc
      · exact ih c hc
      · exact assignRows_decode hjson hread htyped hrows c hc
    | records | startRun | openBoot => exact ih

theorem Reachable.valid {json : LineageJson} {db : Database} (h : Reachable json db) : db.Valid := by
  obtain ⟨databaseId, hsteps⟩ := h
  refine (hsteps.valid ⟨?_, List.Pairwise.nil, ?_, ?_, List.Pairwise.nil, ?_, ?_⟩).1 <;> exact fun _ h => nomatch h

end LabRuntime.Archive
