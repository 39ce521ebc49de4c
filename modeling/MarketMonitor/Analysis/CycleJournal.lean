import MarketMonitor.Analysis.OfficialGate
import MarketMonitor.Library.Run

/-!
# Cycles over a shared journal

Any number of runs of the orchestrator over one database, a call at a time in any order. Every
call of the journal and the commit is one transaction, so a step of the system is one call of
one run together with what its transaction does.

The row of a cycle that is committed stays committed, later runs of the cycle return its
commit, and the row is never `FAILED` over a committed snapshot, when every write is careful
(`stays_of_careful`) : `begin` leaves a committed row alone, `save` writes over it.
-/

namespace MarketMonitor

open Program

/-! ## Transactions -/

/-- `official_cycle_run`, and the `snapshot_uid` and `commit_uid` of each `analysis_commit`. -/
structure CycleDatabase where
  cycles : List CycleCheckpoint
  commits : List (Uid × Uid)
  cycles_unique : (cycles.map CycleCheckpoint.cycleUid).Nodup

namespace CycleDatabase

variable (db : CycleDatabase)

/-- `SqliteCycleJournal.get(cycle_key, subject_uid)`. -/
def get (cycleKey : String) (subjectUid : Uid) : Option CycleCheckpoint :=
  db.cycles.find? fun r => r.cycleKey = cycleKey ∧ r.subjectUid = subjectUid

/-- The rows with that of a cycle changed, but not its identity. -/
def updateCycle (cycleUid : Uid) (change : CycleCheckpoint → CycleCheckpoint)
    (hchange : ∀ r, (change r).cycleUid = r.cycleUid) : CycleDatabase where
  cycles := db.cycles.map fun r => if r.cycleUid = cycleUid then change r else r
  commits := db.commits
  cycles_unique := by
    rw [List.map_map, List.map_congr_left (g := CycleCheckpoint.cycleUid)]
    · exact db.cycles_unique
    · intro r _
      dsimp only [Function.comp_apply]
      split
      · exact hchange r
      · rfl

/-- What `begin` writes over a row that is not committed. -/
def reopened (observedAt : Instant) (existing : CycleCheckpoint) : CycleCheckpoint :=
  { existing with
    observedAt := observedAt
    status := .running
    attempt := existing.attempt + 1
    errorCode := none
    attempt_pos := Nat.le_add_left 1 _ }

theorem reopened_cycleUid (observedAt : Instant) (existing : CycleCheckpoint) :
    (reopened observedAt existing).cycleUid = existing.cycleUid := rfl

theorem firstAttempt_pos : 1 ≤ 1 := le_rfl

/-- The first checkpoint of a cycle. -/
def firstCheckpoint (cycleUid : Uid) (cycleKey : String) (subjectUid : Uid) (observedAt : Instant)
    (named : blank cycleKey = false ∧ blank subjectUid = false) : CycleCheckpoint :=
  ⟨cycleUid, cycleKey, subjectUid, observedAt, .snapshot, .running, 1, none, none, none, [], named,
    firstAttempt_pos⟩

theorem unique_append {checkpoint : CycleCheckpoint}
    (hnew : checkpoint.cycleUid ∉ db.cycles.map CycleCheckpoint.cycleUid) :
    ((db.cycles ++ [checkpoint]).map CycleCheckpoint.cycleUid).Nodup := by
  rw [List.map_append, List.map_singleton, List.nodup_append]
  refine ⟨db.cycles_unique, List.nodup_singleton _, fun a ha b hb hab => hnew ?_⟩
  rwa [← List.mem_singleton.mp hb, ← hab]

/-- `SqliteCycleJournal.begin(cycle_key, subject_uid, observed_at)`. -/
def beginCycle (newUid : Uid) (cycleKey : String) (subjectUid : Uid) (observedAt : Instant) :
    CycleDatabase × Except CycleError CycleCheckpoint :=
  match db.get cycleKey subjectUid with
  | some existing =>
    if existing.status = .committed then (db, .ok existing)
    else (db.updateCycle existing.cycleUid (reopened observedAt) (reopened_cycleUid observedAt),
      .ok (reopened observedAt existing))
  | none =>
    if hnamed : blank cycleKey = false ∧ blank subjectUid = false then
      if hnew : newUid ∉ db.cycles.map CycleCheckpoint.cycleUid then
        (⟨db.cycles ++ [firstCheckpoint newUid cycleKey subjectUid observedAt hnamed], db.commits,
          db.unique_append hnew⟩,
          .ok (firstCheckpoint newUid cycleKey subjectUid observedAt hnamed))
      else
        (db, .error ⟨"IntegrityError", "UNIQUE constraint failed: official_cycle_run.cycle_uid"⟩)
    else (db, .error ⟨"ValueError", "cycle key and subject UID are required"⟩)

/-- What `save` writes over the row of a checkpoint. -/
def saved (checkpoint existing : CycleCheckpoint) : CycleCheckpoint :=
  { existing with
    observedAt := checkpoint.observedAt
    phase := checkpoint.phase
    status := checkpoint.status
    attempt := checkpoint.attempt
    snapshotUid := checkpoint.snapshotUid
    commitUid := checkpoint.commitUid
    errorCode := checkpoint.errorCode
    details := existing.details.update checkpoint.details
    attempt_pos := checkpoint.attempt_pos }

theorem saved_cycleUid (checkpoint existing : CycleCheckpoint) :
    (saved checkpoint existing).cycleUid = existing.cycleUid := rfl

/-- `SqliteCycleJournal.save(checkpoint)`. -/
def save (checkpoint : CycleCheckpoint) : CycleDatabase × Except CycleError CycleCheckpoint :=
  match db.cycles.find? fun r => r.cycleUid = checkpoint.cycleUid with
  | none => (db, .error ⟨"LookupError", "official cycle journal row does not exist"⟩)
  | some existing => (
    db.updateCycle checkpoint.cycleUid (saved checkpoint) (saved_cycleUid checkpoint),
    .ok { checkpoint with details := existing.details.update checkpoint.details })

/-- The snapshots that have an Analysis Commit. -/
def Committed (snapshotUid : Uid) : Prop := snapshotUid ∈ db.commits.map Prod.fst

/-- `AnalysisCommitService.commit(request)` : the commit of the snapshot, or a new one. -/
def commit (newUid : Uid) (request : OfficialCommitInput) (result : OfficialCommitResult) :
    CycleDatabase × Except CycleError OfficialCommitResult :=
  match db.commits.find? fun r => r.1 = request.snapshotUid with
  | some existing => (db, .ok { result with commitUid := existing.2 })
  | none =>
    if newUid ∈ db.commits.map Prod.snd then
      (db, .error ⟨"IntegrityError", "UNIQUE constraint failed: analysis_commit.commit_uid"⟩)
    else ({ db with commits := db.commits ++ [(request.snapshotUid, newUid)] },
      .ok { result with commitUid := newUid })

/-- A call on the database ; `answer` is what the rest of the pipeline answers. -/
def serve (newUid : Uid) : (op : CycleCall) → op.Answer →
    CycleDatabase × Except CycleError op.Answer
  | .journalGet cycleKey subjectUid, _ => (db, .ok (db.get cycleKey subjectUid))
  | .journalBegin cycleKey subjectUid observedAt, _ =>
    db.beginCycle newUid cycleKey subjectUid observedAt
  | .journalSave checkpoint, _ => db.save checkpoint
  | .commit request, result => db.commit newUid request result
  | .readiness _ _, answer => (db, .ok answer)
  | .marketPhase _, answer => (db, .ok answer)
  | .sealSnapshot _ _ _, answer => (db, .ok answer)
  | .runMetrics _ _, answer => (db, .ok answer)
  | .expectedProjectionVersion _, answer => (db, .ok answer)
  | .deliver, answer => (db, .ok answer)

end CycleDatabase

/-- How a call goes : what the pipeline answers, the identity that is drawn, and whether the
call raises, before its transaction is durable or after it. -/
structure CycleResponse where
  answers : (op : CycleCall) → op.Answer
  newUid : Uid
  failure : Option CycleError
  durable : Bool

/-- A transaction that is not rolled back. -/
def CycleResponse.GoesThrough (response : CycleResponse) : Prop :=
  response.failure = none ∨ response.durable = true

instance (response : CycleResponse) : Decidable response.GoesThrough :=
  inferInstanceAs (Decidable (_ ∨ _))

/-- A call with its response : the database after it, and what the run receives. -/
def CycleDatabase.answer (db : CycleDatabase) (response : CycleResponse) (op : CycleCall) :
    CycleDatabase × Except CycleError op.Answer :=
  let served := db.serve response.newUid op (response.answers op)
  (if response.GoesThrough then served.1 else db,
    match response.failure with
    | some error => .error error
    | none => served.2)

/-! ## Runs -/

/-- The database, and the runs as far as they have come. -/
structure CycleSystem where
  db : CycleDatabase
  runs : List (CycleProgram OfficialCycleResult)

/-- What happens : a run is started, or a run makes its next call. -/
inductive CycleEvent where
  | start (c : CycleInput) (closed : Bool)
  | call (run : ℕ) (response : CycleResponse)

namespace CycleSystem

variable (s : CycleSystem)

/-- The next call of a run that has not ended. -/
def callOf (run : ℕ) (response : CycleResponse) : CycleSystem :=
  match s.runs[run]? with
  | some (.call op next) =>
    let (db, answer) := s.db.answer response op
    ⟨db, s.runs.set run (next answer)⟩
  | _ => s

/-- The system after an event. -/
def next : CycleEvent → CycleSystem
  | .start c closed => { s with runs := s.runs ++ [c.run closed] }
  | .call run response => s.callOf run response

end CycleSystem

/-- The runs of the orchestrator, in any order. -/
abbrev CycleRuns := Run fun e (s s' : CycleSystem) => s' = s.next e

/-! ## Committed rows -/

section Rows

variable (cycleKey : String) (subjectUid : Uid)

/-- A row that is `COMMITTED` with a commit. -/
def CycleCheckpoint.CommittedWith (r : CycleCheckpoint) (commitUid : Uid) : Prop :=
  r.status = .committed ∧ r.commitUid = some commitUid

/-- A row that is `FAILED` with a snapshot. -/
def CycleCheckpoint.FailedWith (r : CycleCheckpoint) (snapshotUid : Uid) : Prop :=
  r.status = .failed ∧ r.snapshotUid = some snapshotUid

namespace CycleDatabase

/-- The row of the cycle is `COMMITTED` with a commit. -/
def RowCommitted (db : CycleDatabase) (commitUid : Uid) : Prop :=
  ∃ r, db.get cycleKey subjectUid = some r ∧ r.CommittedWith commitUid

/-- The row of the cycle is `FAILED`, and its snapshot has an Analysis Commit. -/
def FailedOverCommit (db : CycleDatabase) : Prop :=
  ∃ r snapshotUid, db.get cycleKey subjectUid = some r ∧ r.FailedWith snapshotUid ∧
    db.Committed snapshotUid

/-- A call that leaves a committed row committed, and a committed snapshot unfailed : a `save`
over a committed row is of the same commit, a `save` as `FAILED` is of a snapshot without a
commit, and no snapshot is committed while the row has failed with it. -/
def Careful (db : CycleDatabase) (newUid : Uid) : CycleCall → Prop
  | .journalSave checkpoint => ∀ r, db.get cycleKey subjectUid = some r →
      r.cycleUid = checkpoint.cycleUid →
      (∀ commitUid, r.CommittedWith commitUid → checkpoint.CommittedWith commitUid) ∧
      ∀ snapshotUid, checkpoint.FailedWith snapshotUid → ¬db.Committed snapshotUid
  | .commit request => newUid ∉ db.commits.map Prod.snd →
      ∀ r, db.get cycleKey subjectUid = some r → ¬r.FailedWith request.snapshotUid
  | _ => True

end CycleDatabase

/-- An event whose call, when it goes through, is careful. -/
def CycleSystem.Careful (s : CycleSystem) : CycleEvent → Prop
  | .start _ _ => True
  | .call run response => response.GoesThrough → ∀ op next,
      s.runs[run]? = some (.call op next) →
      s.db.Careful cycleKey subjectUid response.newUid op

end Rows

/-- What became of a run over a row that was committed before it started : it has not read the
journal yet, or it raised, or it returned `IDEMPOTENT` with the commit. -/
def Idempotent (started : CycleProgram OfficialCycleResult) (commitUid : Uid)
    (p : CycleProgram OfficialCycleResult) : Prop :=
  p = started ∨ (∃ error, p = .throw error) ∨
    ∃ result : OfficialCycleResult, p = .pure result ∧ result.status = .idempotent ∧
      result.commit = some ⟨commitUid, [], []⟩

/-- The committed cycle of a subject stays committed. -/
structure CommittedCycleStays (run : CycleRuns) (cycleKey : String) (subjectUid : Uid) :
    Prop where
  keeps : ∀ n commitUid, (run.state n).db.RowCommitted cycleKey subjectUid commitUid →
    ∀ m, n ≤ m → (run.state m).db.RowCommitted cycleKey subjectUid commitUid
  idempotent : ∀ n commitUid, (run.state n).db.RowCommitted cycleKey subjectUid commitUid →
    ∀ (c : CycleInput) closed k, c.cycleKey = cycleKey → c.subjectUid = subjectUid → n ≤ k →
      run.event k = .start c closed → ∀ m, k < m →
      ∃ p, (run.state m).runs[(run.state k).runs.length]? = some p ∧
        Idempotent (c.run closed) commitUid p
  notFailed : ∀ n, ¬(run.state n).db.FailedOverCommit cycleKey subjectUid

/-! ## What a call does to the row -/

variable {cycleKey : String} {subjectUid : Uid} {db : CycleDatabase} {newUid : Uid}

namespace CycleDatabase

/-- An update of a row changes what is read of that row only. -/
theorem get_updateCycle {cycleUid : Uid} {change : CycleCheckpoint → CycleCheckpoint}
    (hchange : ∀ r, (change r).cycleUid = r.cycleUid)
    (hkey : ∀ r, (change r).cycleKey = r.cycleKey)
    (hsubject : ∀ r, (change r).subjectUid = r.subjectUid) :
    (db.updateCycle cycleUid change hchange).get cycleKey subjectUid =
      (db.get cycleKey subjectUid).map fun r => if r.cycleUid = cycleUid then change r else r := by
  unfold updateCycle get
  rw [List.find?_map]
  congr 2
  funext r
  dsimp only [Function.comp_apply]
  split
  · rw [hkey, hsubject]
  · rfl

theorem mem_of_get {r : CycleCheckpoint} (h : db.get cycleKey subjectUid = some r) :
    r ∈ db.cycles ∧ r.cycleKey = cycleKey ∧ r.subjectUid = subjectUid :=
  ⟨List.mem_of_find?_eq_some h, by simpa using List.find?_some h⟩

theorem get_append {checkpoint : CycleCheckpoint}
    {hunique : ((db.cycles ++ [checkpoint]).map CycleCheckpoint.cycleUid).Nodup} :
    (⟨db.cycles ++ [checkpoint], db.commits, hunique⟩ : CycleDatabase).get cycleKey subjectUid =
      (db.get cycleKey subjectUid).or
        (if checkpoint.cycleKey = cycleKey ∧ checkpoint.subjectUid = subjectUid
          then some checkpoint else none) := by
  unfold get
  rw [List.find?_append, List.find?_singleton]
  simp only [decide_eq_true_eq]

/-- `begin` leaves the row of a cycle as it is, or the row was not committed and is `RUNNING`
after it. -/
theorem get_beginCycle (db : CycleDatabase) (newUid : Uid) (key : String) (subject : Uid)
    (observedAt : Instant) :
    ((db.beginCycle newUid key subject observedAt).1.get cycleKey subjectUid =
      db.get cycleKey subjectUid) ∨
    (∀ r, db.get cycleKey subjectUid = some r → r.status ≠ .committed) ∧
      ∃ r, (db.beginCycle newUid key subject observedAt).1.get cycleKey subjectUid =
        some r ∧ r.status = .running := by
  unfold beginCycle
  cases hrow : db.get key subject with
  | some existing =>
    dsimp only
    split
    · exact Or.inl rfl
    rename_i hstatus
    dsimp only
    rw [get_updateCycle (reopened_cycleUid observedAt) (fun _ => rfl) fun _ => rfl]
    cases hget : db.get cycleKey subjectUid with
    | none => exact Or.inl rfl
    | some r =>
      by_cases hsame : r.cycleUid = existing.cycleUid
      · have hr : r = existing :=
          List.inj_on_of_nodup_map db.cycles_unique (mem_of_get hget).1 (mem_of_get hrow).1 hsame
        refine Or.inr ⟨fun r' hr' => ?_, reopened observedAt r, ?_, rfl⟩
        · cases hr'
          rwa [hr]
        · rw [Option.map_some, if_pos hsame]
      · rw [Option.map_some, if_neg hsame]
        exact Or.inl rfl
  | none =>
    dsimp only
    split
    · split
      · rw [get_append]
        cases hget : db.get cycleKey subjectUid with
        | some r => exact Or.inl Option.some_or
        | none =>
          rw [Option.none_or]
          by_cases hsame : key = cycleKey ∧ subject = subjectUid
          · exact Or.inr ⟨(fun r hr => by cases hr), _, if_pos hsame, rfl⟩
          · exact Or.inl (if_neg hsame)
      · exact Or.inl rfl
    · exact Or.inl rfl

theorem commits_beginCycle (key : String) (subject : Uid) (observedAt : Instant) :
    (db.beginCycle newUid key subject observedAt).1.commits = db.commits := by
  unfold beginCycle
  split
  · split <;> rfl
  · split
    · split <;> rfl
    · rfl

/-- `save` writes the checkpoint over the row with its identity. -/
theorem get_save (checkpoint : CycleCheckpoint) :
    (db.save checkpoint).1.get cycleKey subjectUid = (db.get cycleKey subjectUid).map fun r =>
      if r.cycleUid = checkpoint.cycleUid then saved checkpoint r else r := by
  unfold save
  split
  · rename_i hnone
    cases hrow : db.get cycleKey subjectUid with
    | none => rfl
    | some r =>
      have hmem := List.mem_of_find?_eq_some hrow
      have hne : r.cycleUid ≠ checkpoint.cycleUid := by
        simpa using List.find?_eq_none.mp hnone r hmem
      rw [Option.map_some, if_neg hne]
  · exact get_updateCycle (saved_cycleUid checkpoint) (fun _ => rfl) fun _ => rfl

theorem commits_save (checkpoint : CycleCheckpoint) :
    (db.save checkpoint).1.commits = db.commits := by
  unfold save
  split <;> rfl

theorem get_commit (request : OfficialCommitInput) (result : OfficialCommitResult) :
    (db.commit newUid request result).1.get cycleKey subjectUid =
      db.get cycleKey subjectUid := by
  unfold commit
  split
  · rfl
  · split <;> rfl

/-- `commit` adds at most the commit of its snapshot. -/
theorem committed_commit {snapshotUid : Uid} {request : OfficialCommitInput}
    {result : OfficialCommitResult} :
    (db.commit newUid request result).1.Committed snapshotUid ↔ db.Committed snapshotUid ∨
      newUid ∉ db.commits.map Prod.snd ∧ snapshotUid = request.snapshotUid ∧
        ¬db.Committed request.snapshotUid := by
  unfold commit
  split
  · rename_i existing hexisting
    have hcommitted : db.Committed request.snapshotUid :=
      List.mem_map.mpr ⟨existing, List.mem_of_find?_eq_some hexisting,
        by simpa using List.find?_some hexisting⟩
    simp [hcommitted]
  · rename_i hnone
    have hnew : ¬db.Committed request.snapshotUid := by
      intro hmem
      obtain ⟨r, hr, hsnapshot⟩ := List.mem_map.mp hmem
      exact absurd hsnapshot (by simpa using List.find?_eq_none.mp hnone r hr)
    split
    · rename_i hclash
      simp [hclash]
    · rename_i hfresh
      rw [Committed, List.map_append, List.mem_append, List.map_singleton, List.mem_singleton]
      exact or_congr Iff.rfl ⟨fun h => ⟨hfresh, h, hnew⟩, fun h => h.2.1⟩

variable {op : CycleCall} {a : op.Answer}

/-- A careful call keeps the commit of a committed row. -/
theorem RowCommitted.serve {commitUid : Uid} (h : db.RowCommitted cycleKey subjectUid commitUid)
    (hcareful : db.Careful cycleKey subjectUid newUid op) :
    (db.serve newUid op a).1.RowCommitted cycleKey subjectUid commitUid := by
  obtain ⟨r, hr, hcommitted⟩ := h
  cases op with
  | journalBegin key subject observedAt =>
    obtain hsame | ⟨hnot, -⟩ := get_beginCycle db newUid key subject observedAt
    · exact ⟨r, hsame.trans hr, hcommitted⟩
    · exact absurd hcommitted.1 (hnot r hr)
  | journalSave checkpoint =>
    refine ⟨_, (get_save checkpoint).trans (congrArg _ hr), ?_⟩
    dsimp only
    split
    · rename_i hrow
      exact (hcareful r hr hrow).1 commitUid hcommitted
    · exact hcommitted
  | commit request => exact ⟨r, (get_commit request a).trans hr, hcommitted⟩
  | _ => exact ⟨r, hr, hcommitted⟩

/-- After a careful call the row has not failed over a commit when it had not before. -/
theorem not_failedOverCommit_serve (h : ¬db.FailedOverCommit cycleKey subjectUid)
    (hcareful : db.Careful cycleKey subjectUid newUid op) :
    ¬(db.serve newUid op a).1.FailedOverCommit cycleKey subjectUid := by
  rintro ⟨r, snapshotUid, hr, hfailed, hcommitted⟩
  cases op with
  | journalBegin key subject observedAt =>
    change (db.beginCycle newUid key subject observedAt).1.get _ _ = _ at hr
    rw [Committed] at hcommitted
    change snapshotUid ∈ (db.beginCycle newUid key subject observedAt).1.commits.map _ at hcommitted
    rw [commits_beginCycle] at hcommitted
    obtain hsame | ⟨-, r', hr', hrunning⟩ :=
      get_beginCycle db newUid key subject observedAt
    · exact h ⟨r, snapshotUid, hsame.symm.trans hr, hfailed, hcommitted⟩
    · rw [hr] at hr'
      cases hr'
      exact absurd (hfailed.1.symm.trans hrunning) (by decide)
  | journalSave checkpoint =>
    have hcommitted : db.Committed snapshotUid := by
      rw [Committed, ← commits_save checkpoint]
      exact hcommitted
    obtain ⟨existing, hexisting, rfl⟩ :=
      Option.map_eq_some_iff.mp ((get_save checkpoint).symm.trans hr)
    by_cases hrow : existing.cycleUid = checkpoint.cycleUid
    · rw [if_pos hrow] at hfailed
      exact (hcareful existing hexisting hrow).2 snapshotUid hfailed hcommitted
    · rw [if_neg hrow] at hfailed
      exact h ⟨existing, snapshotUid, hexisting, hfailed, hcommitted⟩
  | commit request =>
    have hr := (get_commit request a).symm.trans hr
    obtain hold | ⟨hnew, rfl, -⟩ := committed_commit.mp hcommitted
    · exact h ⟨r, snapshotUid, hr, hfailed, hold⟩
    · exact hcareful hnew r hr hfailed
  | _ => exact h ⟨r, snapshotUid, hr, hfailed, hcommitted⟩

end CycleDatabase

/-! ## What an event does -/

variable {s : CycleSystem} {e : CycleEvent} {commitUid : Uid}

/-- An event leaves the database as it is, or is a call that goes through. -/
theorem next_db (s : CycleSystem) (e : CycleEvent) : (s.next e).db = s.db ∨
    ∃ run response op next, e = .call run response ∧ response.GoesThrough ∧
      s.runs[run]? = some (.call op next) ∧
      (s.next e).db = (s.db.serve response.newUid op (response.answers op)).1 := by
  cases e with
  | start c closed => exact Or.inl rfl
  | call run response =>
    unfold CycleSystem.next CycleSystem.callOf
    dsimp only
    split
    · rename_i op next hrun
      unfold CycleDatabase.answer
      dsimp only
      split
      · rename_i hthrough
        exact Or.inr ⟨run, response, op, next, rfl, hthrough, hrun, rfl⟩
      · exact Or.inl rfl
    · exact Or.inl rfl

theorem RowCommitted.next (h : s.db.RowCommitted cycleKey subjectUid commitUid)
    (hcareful : s.Careful cycleKey subjectUid e) :
    (s.next e).db.RowCommitted cycleKey subjectUid commitUid := by
  obtain hsame | ⟨run, response, op, next, rfl, hthrough, hrun, hserve⟩ := next_db s e
  · rwa [hsame]
  · rw [hserve]
    exact h.serve (hcareful hthrough op next hrun)

theorem not_failedOverCommit_next (h : ¬s.db.FailedOverCommit cycleKey subjectUid)
    (hcareful : s.Careful cycleKey subjectUid e) :
    ¬(s.next e).db.FailedOverCommit cycleKey subjectUid := by
  obtain hsame | ⟨run, response, op, next, rfl, hthrough, hrun, hserve⟩ := next_db s e
  · rwa [hsame]
  · rw [hserve]
    exact CycleDatabase.not_failedOverCommit_serve h (hcareful hthrough op next hrun)

/-! ## Runs over a committed row -/

/-- The first call of a run reads the journal, and a committed row ends the run. -/
theorem idempotent_of_answer {c : CycleInput} {closed : Bool} {op : CycleCall}
    {next : Except CycleError op.Answer → CycleProgram OfficialCycleResult}
    (hcall : c.run closed = .call op next)
    (hrow : db.RowCommitted c.cycleKey c.subjectUid commitUid) (response : CycleResponse) :
    Idempotent (c.run closed) commitUid (next (db.answer response op).2) := by
  obtain ⟨r, hr, hstatus, hcommit⟩ := hrow
  refine Or.inr ?_
  unfold CycleInput.run at hcall
  split_ifs at hcall
  · cases hcall
  cases hcall
  unfold CycleDatabase.answer
  dsimp only
  split
  · rename_i error _
    exact Or.inl ⟨error, rfl⟩
  · refine Or.inr ⟨c.idempotent r, ?_, rfl, ?_⟩
    · change handle _ _ (ofExcept (.ok (db.get c.cycleKey c.subjectUid))) = _
      rw [hr]
      exact if_pos hstatus
    · exact congrArg (Option.map _) hcommit

/-- A run over a committed row stays on its way to `IDEMPOTENT`. -/
theorem Idempotent.next {c : CycleInput} {closed : Bool} {i : ℕ}
    {p : CycleProgram OfficialCycleResult} (hp : s.runs[i]? = some p)
    (h : Idempotent (c.run closed) commitUid p)
    (hrow : s.db.RowCommitted c.cycleKey c.subjectUid commitUid) (e : CycleEvent) :
    ∃ p', (s.next e).runs[i]? = some p' ∧ Idempotent (c.run closed) commitUid p' := by
  have hi : i < s.runs.length := (List.getElem?_eq_some_iff.mp hp).1
  cases e with
  | start c' closed' => exact ⟨p, (List.getElem?_append_left hi).trans hp, h⟩
  | call run response =>
    unfold CycleSystem.next CycleSystem.callOf
    dsimp only
    split
    · rename_i op next hrun
      by_cases hsame : run = i
      · subst hsame
        cases hp.symm.trans hrun
        refine ⟨_, List.getElem?_set_self hi, ?_⟩
        obtain hstarted | ⟨error, hthrow⟩ | ⟨result, hpure, -⟩ := h
        · exact idempotent_of_answer hstarted.symm hrow response
        · cases hthrow
        · cases hpure
      · exact ⟨p, (List.getElem?_set_ne hsame).trans hp, h⟩
    · exact ⟨p, hp, h⟩

/-! ## Committed cycles -/

/-- From a state in which the row has not failed over a commit, the committed cycle stays
committed when every event is careful. -/
theorem stays_of_careful (run : CycleRuns) (cycleKey : String) (subjectUid : Uid)
    (hstart : ¬(run.state 0).db.FailedOverCommit cycleKey subjectUid)
    (hcareful : ∀ n, (run.state n).Careful cycleKey subjectUid (run.event n)) :
    CommittedCycleStays run cycleKey subjectUid := by
  have hkeeps : ∀ n commitUid, (run.state n).db.RowCommitted cycleKey subjectUid commitUid →
      ∀ m, n ≤ m → (run.state m).db.RowCommitted cycleKey subjectUid commitUid := by
    intro n commitUid hn m hnm
    refine run.holds_of_le (P := fun s => s.db.RowCommitted cycleKey subjectUid commitUid) hnm hn
      fun j _ _ hj => ?_
    rw [run.steps j]
    exact RowCommitted.next hj (hcareful j)
  refine ⟨hkeeps, ?_, fun n => ?_⟩
  · rintro n commitUid hn c closed k rfl rfl hnk hevent m hkm
    refine run.holds_of_le (n := k + 1)
      (P := fun s => ∃ p, s.runs[(run.state k).runs.length]? = some p ∧
        Idempotent (c.run closed) commitUid p) hkm ⟨c.run closed, ?_, Or.inl rfl⟩ ?_
    · rw [run.steps k, hevent]
      exact List.getElem?_concat_length
    · rintro j hkj - ⟨p, hp, hidempotent⟩
      rw [run.steps j]
      exact hidempotent.next hp (hkeeps n commitUid hn j (by omega)) (run.event j)
  · induction n with
    | zero => exact hstart
    | succ n ih =>
      rw [run.steps n]
      exact not_failedOverCommit_next ih (hcareful n)

end MarketMonitor
