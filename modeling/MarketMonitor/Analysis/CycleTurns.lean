import MarketMonitor.Analysis.CycleJournal

/-!
# The turn of a run

The runs of a cycle share its row in the journal, and each knows the row from its own `begin`
on. A run that begins the cycle over a settled row and then has the journal to itself makes
only careful calls, and it leaves the row settled but for the calls between its commit and its
`COMMITTED` save (`keepsTurn_run`).
-/

namespace MarketMonitor

open Program

/-! ## Turns -/

/-- A call that neither begins a cycle nor writes. -/
def CycleCall.Quiet : CycleCall → Prop
  | .journalBegin _ _ _ | .journalSave _ | .commit _ => False
  | _ => True

/-- A call between the commit of a snapshot and the `COMMITTED` save, or that save. -/
def CycleCall.Closing : CycleCall → Prop
  | .journalSave checkpoint => checkpoint.phase = .eventOutbox ∨ checkpoint.phase = .completed
  | .deliver => True
  | _ => False

/-- A call that does not raise after its commit is durable : neither a durable commit, nor what
follows it up to the `COMMITTED` save. -/
def CycleResponse.Calm (response : CycleResponse) : CycleCall → Prop
  | .commit _ => response.durable = true → response.failure = none
  | op => op.Closing → response.failure = none

/-- A snapshot that is sealed has no Analysis Commit. -/
def CycleResponse.SealsNew (response : CycleResponse) (db : CycleDatabase) : CycleCall → Prop
  | .sealSnapshot subjectUid cycleKey observedAt =>
    ¬db.Committed (response.answers (.sealSnapshot subjectUid cycleKey observedAt))
  | _ => True

namespace CycleDatabase

variable (cycleKey : String) (subjectUid : Uid)

/-- The row of the cycle is `COMMITTED` with a commit, or its snapshot has none. -/
def Settled (db : CycleDatabase) : Prop :=
  ∀ r, db.get cycleKey subjectUid = some r → (∃ commitUid, r.CommittedWith commitUid) ∨
    r.status ≠ .committed ∧ ∀ snapshotUid ∈ r.snapshotUid, ¬db.Committed snapshotUid

end CycleDatabase

/-! ## What a run knows of the journal -/

section

variable (cycleKey : String) (subjectUid : Uid)

/-- What a run may call : nothing that writes before it begins the cycle, and then, with the
database it shares, what is careful. It leaves the row settled, but for the calls between its
commit and its `COMMITTED` save. -/
def May : Option CycleDatabase → CycleCall → Prop
  | none, .journalBegin cycleKey' subjectUid' _ => cycleKey' = cycleKey ∧ subjectUid' = subjectUid
  | none, op => op.Quiet
  | some db, op => (∀ newUid, db.Careful cycleKey subjectUid newUid op) ∧
      (op.Closing ∨ db.Settled cycleKey subjectUid)

/-- What a run hears : anything before it begins the cycle, and from then on the answers of the
database. -/
inductive Hears : Option CycleDatabase → (op : CycleCall) → Except CycleError op.Answer →
    Option CycleDatabase → Prop where
  | quiet {op : CycleCall} (hquiet : op.Quiet) (answer : Except CycleError op.Answer) :
      Hears none op answer none
  | refused {op : CycleCall} (error : CycleError) : Hears none op (.error error) none
  | begun {op : CycleCall} {db : CycleDatabase} (response : CycleResponse) (hbegin : ¬op.Quiet)
      (hsettled : db.Settled cycleKey subjectUid) :
      Hears none op (db.answer response op).2 (some (db.answer response op).1)
  | served {op : CycleCall} {db : CycleDatabase} {response : CycleResponse}
      (hcalm : response.Calm op) (hseals : response.SealsNew db op) :
      Hears (some db) op (db.answer response op).2 (some (db.answer response op).1)

/-- A run that has ended leaves the row settled. -/
def LeavesSettled {α : Type} (s : Option CycleDatabase) (_ : Except CycleError α) : Prop :=
  ∀ db ∈ s, db.Settled cycleKey subjectUid

/-- A program that keeps to its turn. -/
abbrev KeepsTurn (p : CycleProgram OfficialCycleResult) (s : Option CycleDatabase) : Prop :=
  p.Guarded (May cycleKey subjectUid) (Hears cycleKey subjectUid)
    (LeavesSettled cycleKey subjectUid) s

end

/-! ## The row while a run has it -/

variable {cycleKey : String} {subjectUid : Uid} {db : CycleDatabase} {response : CycleResponse}
  {checkpoint saved : CycleCheckpoint} {op : CycleCall}

/-- The row of a run that has not committed, and the checkpoint it saved last. -/
structure Held (cycleKey : String) (subjectUid : Uid) (db : CycleDatabase)
    (checkpoint : CycleCheckpoint) : Prop where
  row : ∃ r, db.get cycleKey subjectUid = some r ∧ r.cycleUid = checkpoint.cycleUid ∧
    r.status ≠ .committed ∧ ∀ snapshotUid ∈ r.snapshotUid, ¬db.Committed snapshotUid
  own : ∀ snapshotUid ∈ checkpoint.snapshotUid, ¬db.Committed snapshotUid

/-- The row of a run, which is `RUNNING` like the checkpoint. -/
structure RunningRow (cycleKey : String) (subjectUid : Uid) (db : CycleDatabase)
    (checkpoint : CycleCheckpoint) : Prop where
  row : ∃ r, db.get cycleKey subjectUid = some r ∧ r.cycleUid = checkpoint.cycleUid ∧
    r.status = .running
  status : checkpoint.status = .running

theorem Held.settled (h : Held cycleKey subjectUid db checkpoint) :
    db.Settled cycleKey subjectUid := by
  obtain ⟨⟨r, hr, -, hstatus, hsnapshot⟩, -⟩ := h
  intro r' hr'
  cases hr.symm.trans hr'
  exact Or.inr ⟨hstatus, hsnapshot⟩

theorem fst_answer (db : CycleDatabase) (response : CycleResponse) (op : CycleCall) :
    (db.answer response op).1 =
      if response.GoesThrough then (db.serve response.newUid op (response.answers op)).1
      else db :=
  rfl

/-- A quiet call leaves the database as it is. -/
theorem fst_answer_of_quiet (op : CycleCall) (h : op.Quiet) : (db.answer response op).1 = db := by
  rw [fst_answer]
  split
  · cases op with
    | journalBegin => exact h.elim
    | journalSave => exact h.elim
    | commit => exact h.elim
    | _ => rfl
  · rfl

/-- A save over a row that is not committed, of a snapshot without a commit. -/
theorem Held.save (h : Held cycleKey subjectUid db checkpoint)
    (hcycle : saved.cycleUid = checkpoint.cycleUid) (hstatus : saved.status ≠ .committed)
    (hown : ∀ snapshotUid ∈ saved.snapshotUid, ¬db.Committed snapshotUid)
    (response : CycleResponse) :
    Held cycleKey subjectUid (db.answer response (.journalSave saved)).1 saved := by
  obtain ⟨⟨r, hr, hrow, hnot, hsnapshot⟩, -⟩ := h
  rw [fst_answer]
  split
  · have hcommitted : ∀ snapshotUid,
        (db.save saved).1.Committed snapshotUid ↔ db.Committed snapshotUid := fun snapshotUid => by
      rw [CycleDatabase.Committed, CycleDatabase.commits_save, CycleDatabase.Committed]
    change Held cycleKey subjectUid (db.save saved).1 saved
    refine ⟨⟨CycleDatabase.saved saved r, ?_, hrow.trans hcycle.symm, hstatus, ?_⟩, ?_⟩
    · rw [CycleDatabase.get_save, hr, Option.map_some, if_pos (hrow.trans hcycle.symm)]
    · exact fun snapshotUid hmem => mt (hcommitted snapshotUid).mp (hown snapshotUid hmem)
    · exact fun snapshotUid hmem => mt (hcommitted snapshotUid).mp (hown snapshotUid hmem)
  · exact ⟨⟨r, hr, hrow.trans hcycle.symm, hnot, hsnapshot⟩, hown⟩

/-- The row after a save that returns. -/
theorem runningRow_save (hrow : ∃ r, db.get cycleKey subjectUid = some r ∧
      r.cycleUid = saved.cycleUid) (hstatus : saved.status = .running)
    (hok : (db.answer response (.journalSave saved)).2 = .ok checkpoint) :
    RunningRow cycleKey subjectUid (db.answer response (.journalSave saved)).1 checkpoint ∧
      checkpoint.cycleUid = saved.cycleUid ∧ checkpoint.snapshotUid = saved.snapshotUid := by
  obtain ⟨r, hr, hcycle⟩ := hrow
  unfold CycleDatabase.answer at hok ⊢
  dsimp only at hok ⊢
  split at hok
  · cases hok
  rename_i hnone
  have hthrough : response.GoesThrough := Or.inl hnone
  rw [if_pos hthrough]
  have hget : (db.save saved).1.get cycleKey subjectUid = some (CycleDatabase.saved saved r) := by
    rw [CycleDatabase.get_save, hr, Option.map_some, if_pos hcycle]
  change (db.save saved).2 = .ok checkpoint at hok
  unfold CycleDatabase.save at hok
  split at hok
  · cases hok
  · cases hok
    exact ⟨⟨⟨_, hget, hcycle, hstatus⟩, hstatus⟩, rfl, rfl⟩

/-! ## Calls of a run that has the row -/

/-- A save of a run that has not committed. -/
theorem guarded_save (saved : CycleCheckpoint) (h : Held cycleKey subjectUid db checkpoint)
    (hcycle : saved.cycleUid = checkpoint.cycleUid) (hstatus : saved.status ≠ .committed)
    (hown : ∀ snapshotUid ∈ saved.snapshotUid, ¬db.Committed snapshotUid) :
    (ask (.journalSave saved)).Guarded (May cycleKey subjectUid) (Hears cycleKey subjectUid)
      (fun s outcome => ∃ db', s = some db' ∧ Held cycleKey subjectUid db' saved ∧
        db'.commits = db.commits ∧ ∀ checkpoint', outcome = .ok checkpoint' →
          saved.status = .running → RunningRow cycleKey subjectUid db' checkpoint' ∧
            Held cycleKey subjectUid db' checkpoint' ∧
            checkpoint'.cycleUid = saved.cycleUid) (some db) := by
  obtain ⟨r, hr, hrow, hnot, -⟩ := h.row
  refine guarded_perform ⟨fun newUid r' hr' _ => ?_, Or.inr h.settled⟩ fun answer s' hs' => ?_
  · cases hr.symm.trans hr'
    exact ⟨fun commitUid hcommitted => absurd hcommitted.1 hnot,
      fun snapshotUid hfailed => hown snapshotUid hfailed.2⟩
  · cases hs' with
    | served hcalm hseals =>
      rename_i response
      have hheld := h.save hcycle hstatus hown response
      refine ⟨_, rfl, hheld, ?_, fun checkpoint' hok hrunning => ?_⟩
      · rw [fst_answer]
        split
        · exact CycleDatabase.commits_save saved
        · rfl
      · obtain ⟨hrow', hcycle', hsnapshot'⟩ :=
          runningRow_save ⟨r, hr, hrow.trans hcycle.symm⟩ hrunning hok
        obtain ⟨r', hr', hrowCycle, hrowStatus, hrowSnapshot⟩ := hheld.row
        exact ⟨hrow', ⟨⟨r', hr', hrowCycle.trans hcycle'.symm, hrowStatus, hrowSnapshot⟩,
          fun snapshotUid hmem => hheld.own snapshotUid (hsnapshot' ▸ hmem)⟩, hcycle'⟩

/-- The snapshot of an updated checkpoint is the one it is given, or its own. -/
theorem mem_snapshotUid_updated {phase : CyclePhase} {status : Option CycleStatus}
    {uid commitUid : Option Uid} {errorCode : Option String} {details : Details}
    {snapshotUid : Uid} (h : snapshotUid ∈
      (checkpoint.updated phase status uid commitUid errorCode details).snapshotUid) :
    snapshotUid ∈ uid ∨ snapshotUid ∈ checkpoint.snapshotUid := by
  cases uid with
  | none => exact Or.inr h
  | some uid => exact Or.inl h

/-- What raises before the commit is recorded as `FAILED`. -/
theorem keepsTurn_recordFailure (h : Held cycleKey subjectUid db checkpoint) (e : CycleError) :
    KeepsTurn cycleKey subjectUid (recordFailure checkpoint e) (some db) := by
  have hfailed : CycleStatus.failed ≠ .committed := by decide
  refine (guarded_save (checkpoint.updated .failed (some .failed) checkpoint.snapshotUid none
    (some e.typeName) [("error", .str e.typeName)]) h rfl hfailed fun snapshotUid hmem => ?_).bind
      ?_ ?_
  · exact h.own snapshotUid ((mem_snapshotUid_updated hmem).elim id id)
  · rintro _ e' ⟨db', rfl, hheld, -⟩ db'' hdb
    cases hdb
    exact hheld.settled
  · rintro _ saved ⟨db', rfl, hheld, -⟩ db'' hdb
    cases hdb
    exact hheld.settled

/-- A checkpoint of the same cycle whose snapshot has no commit. -/
theorem Held.of_own (h : Held cycleKey subjectUid db saved)
    (hcycle : saved.cycleUid = checkpoint.cycleUid)
    (hown : ∀ snapshotUid ∈ checkpoint.snapshotUid, ¬db.Committed snapshotUid) :
    Held cycleKey subjectUid db checkpoint := by
  obtain ⟨⟨r, hr, hrow, hstatus, hsnapshot⟩, -⟩ := h
  exact ⟨⟨r, hr, hrow.trans hcycle, hstatus, hsnapshot⟩, hown⟩

/-- A quiet call of a run that has not committed. -/
theorem guarded_quiet (op : CycleCall) (hquiet : op.Quiet) (h : db.Settled cycleKey subjectUid) :
    (ask op).Guarded (May cycleKey subjectUid) (Hears cycleKey subjectUid)
      (fun s _ => s = some db) (some db) := by
  refine guarded_perform ⟨fun newUid => ?_, Or.inr h⟩ fun answer s' hs' => ?_
  · cases op with
    | journalBegin => exact hquiet.elim
    | journalSave => exact hquiet.elim
    | commit => exact hquiet.elim
    | _ => trivial
  · cases hs' with
    | served hcalm hseals => rw [fst_answer_of_quiet op hquiet]

theorem committed_congr {db' : CycleDatabase} (h : db'.commits = db.commits) {snapshotUid : Uid} :
    db'.Committed snapshotUid ↔ db.Committed snapshotUid := by
  rw [CycleDatabase.Committed, h, CycleDatabase.Committed]

/-! ## The calls of an official cycle -/

section

variable {c : CycleInput}

/-- The snapshot of the cycle has no commit. -/
theorem guarded_sealedSnapshot (h : Held cycleKey subjectUid db checkpoint)
    (hrunning : RunningRow cycleKey subjectUid db checkpoint) (threshold : StageStatus) :
    (c.sealedSnapshot checkpoint threshold).Guarded (May cycleKey subjectUid)
      (Hears cycleKey subjectUid) (fun s outcome => ∃ db', s = some db' ∧
        Held cycleKey subjectUid db' checkpoint ∧ ∀ x, outcome = .ok x →
          Held cycleKey subjectUid db' x.2 ∧ RunningRow cycleKey subjectUid db' x.2 ∧
            ¬db'.Committed x.1) (some db) := by
  unfold CycleInput.sealedSnapshot
  cases hsnapshot : checkpoint.snapshotUid with
  | some snapshotUid =>
    refine ⟨db, rfl, h, fun x hx => ?_⟩
    cases hx
    exact ⟨h, hrunning, h.own _ hsnapshot⟩
  | none =>
    have hnone : ∀ db' : CycleDatabase, ∀ snapshotUid ∈ checkpoint.snapshotUid,
        ¬db'.Committed snapshotUid := fun db' snapshotUid hmem => by
      rw [hsnapshot] at hmem
      cases hmem
    have hseal : (ask (.sealSnapshot c.subjectUid c.cycleKey c.observedAt)).Guarded
        (May cycleKey subjectUid) (Hears cycleKey subjectUid) (fun s outcome => s = some db ∧
          ∀ snapshotUid, outcome = .ok snapshotUid → ¬db.Committed snapshotUid) (some db) := by
      refine guarded_perform ⟨fun _ => trivial, Or.inr h.settled⟩ fun answer s' hs' => ?_
      cases hs' with
      | served hcalm hseals =>
        refine ⟨by rw [fst_answer_of_quiet (.sealSnapshot _ _ _) trivial],
          fun snapshotUid hok => ?_⟩
        unfold CycleDatabase.answer at hok
        dsimp only at hok
        split at hok
        · cases hok
        · cases hok
          exact hseals
    refine hseal.bind ?_ ?_
    · rintro _ e ⟨rfl, -⟩
      exact ⟨db, rfl, h, fun x hx => by cases hx⟩
    rintro _ snapshotUid ⟨rfl, hnew⟩
    have hnew := hnew snapshotUid rfl
    refine (guarded_save (checkpoint.updated .metric none (some snapshotUid) none none _) h rfl
      (by change checkpoint.status ≠ _; rw [hrunning.status]; decide) ?_).bind ?_ ?_
    · intro uid hmem
      rcases mem_snapshotUid_updated hmem with hmem | hmem
      · cases hmem
        exact hnew
      · exact h.own uid hmem
    · rintro _ e ⟨db', rfl, hheld, -⟩
      exact ⟨db', rfl, hheld.of_own rfl (hnone db'), fun x hx => by cases hx⟩
    · rintro _ saved ⟨db', rfl, hheld, hcommits, hok⟩
      obtain ⟨hrow, hheld', -⟩ := hok saved rfl hrunning.status
      refine ⟨db', rfl, hheld.of_own rfl (hnone db'), fun x hx => ?_⟩
      cases hx
      exact ⟨hheld', hrow, mt (committed_congr hcommits).mp hnew⟩

/-- The metrics leave the journal as it is. -/
theorem guarded_officialMetrics (h : db.Settled cycleKey subjectUid) (snapshotUid : Uid)
    (threshold : StageStatus) :
    (c.officialMetrics snapshotUid threshold).Guarded (May cycleKey subjectUid)
      (Hears cycleKey subjectUid) (fun s _ => s = some db) (some db) := by
  have hpermit : (issuePermit c.cycleKey c.subjectUid snapshotUid (activationCount threshold.data)
      c.nonce (textOf (threshold.data.get "guardian_threshold_uid"))
      (textOf (threshold.data.get "scout_threshold_uid"))).Guarded (May cycleKey subjectUid)
      (Hears cycleKey subjectUid) (fun s _ => s = some db) (some db) := by
    unfold issuePermit
    split_ifs
    all_goals exact rfl
  refine hpermit.bind (fun _ _ hs => hs) ?_
  rintro _ permit rfl
  exact guarded_quiet (.runMetrics _ _) trivial h

/-- A commit of a snapshot without one either leaves the database as it is and raises, or
returns and leaves the journal. -/
theorem answer_commit {request : OfficialCommitInput} (hcalm : response.Calm (.commit request))
    (hnew : ¬db.Committed request.snapshotUid) :
    (∃ e, (db.answer response (.commit request)).2 = .error e ∧
      (db.answer response (.commit request)).1 = db) ∨
    ∃ result, (db.answer response (.commit request)).2 = .ok result ∧
      (db.answer response (.commit request)).1.get cycleKey subjectUid =
        db.get cycleKey subjectUid := by
  have hnone : db.commits.find? (fun r => r.1 = request.snapshotUid) = none := by
    refine List.find?_eq_none.mpr fun r hr heq => hnew (List.mem_map.mpr ⟨r, hr, ?_⟩)
    exact of_decide_eq_true heq
  unfold CycleDatabase.answer CycleDatabase.serve
  dsimp only
  split
  · rename_i e hfailure
    have hdurable : ¬response.GoesThrough := by
      rintro (hnone | hdurable)
      · cases hfailure.symm.trans hnone
      · cases hfailure.symm.trans (hcalm hdurable)
    exact Or.inl ⟨e, rfl, if_neg hdurable⟩
  rename_i hfailure
  have hthrough : response.GoesThrough := Or.inl hfailure
  rw [if_pos hthrough]
  unfold CycleDatabase.commit
  rw [hnone]
  dsimp only
  split
  · exact Or.inl ⟨_, rfl, rfl⟩
  · exact Or.inr ⟨_, rfl, rfl⟩

/-- A save between the commit and the `COMMITTED` save, or that save. -/
theorem guarded_closingSave (saved : CycleCheckpoint)
    (hphase : saved.phase = .eventOutbox ∨ saved.phase = .completed)
    (hrow : ∃ r, db.get cycleKey subjectUid = some r ∧ r.cycleUid = saved.cycleUid ∧
      r.status = .running) (hstatus : saved.status ≠ .failed) :
    (ask (.journalSave saved)).Guarded (May cycleKey subjectUid) (Hears cycleKey subjectUid)
      (fun s outcome => ∃ db' checkpoint' r, s = some db' ∧ outcome = .ok checkpoint' ∧
        db'.get cycleKey subjectUid = some r ∧ r.cycleUid = saved.cycleUid ∧
        r.status = saved.status ∧ r.commitUid = saved.commitUid ∧
        checkpoint'.cycleUid = saved.cycleUid) (some db) := by
  obtain ⟨r, hr, hcycle, hrunning⟩ := hrow
  refine guarded_perform ⟨fun newUid r' hr' _ => ?_, Or.inl hphase⟩ fun answer s' hs' => ?_
  · cases hr.symm.trans hr'
    exact ⟨fun commitUid hcommitted => absurd (hrunning.symm.trans hcommitted.1) (by decide),
      fun snapshotUid hfailed => absurd hfailed.1 hstatus⟩
  cases hs' with
  | served hcalm hseals =>
    rename_i response
    have hfailure : response.failure = none := hcalm hphase
    have hthrough : response.GoesThrough := Or.inl hfailure
    have hget : (db.save saved).1.get cycleKey subjectUid =
        some (CycleDatabase.saved saved r) := by
      rw [CycleDatabase.get_save, hr, Option.map_some, if_pos hcycle]
    have hsome : db.cycles.find? (fun r => r.cycleUid = saved.cycleUid) ≠ none := fun hnone =>
      List.find?_eq_none.mp hnone r (CycleDatabase.mem_of_get hr).1 (decide_eq_true hcycle)
    obtain ⟨existing, hexisting⟩ := Option.ne_none_iff_exists'.mp hsome
    have hanswer : db.answer response (.journalSave saved) =
        ((db.save saved).1, (db.save saved).2) := by
      unfold CycleDatabase.answer
      dsimp only
      rw [if_pos hthrough, hfailure]
      rfl
    have hok : (db.save saved).2 =
        .ok { saved with details := existing.details.update saved.details } := by
      unfold CycleDatabase.save
      rw [hexisting]
    exact ⟨_, _, CycleDatabase.saved saved r, rfl, (congrArg Prod.snd hanswer).trans hok,
      (congrArg (fun x => x.1.get cycleKey subjectUid) hanswer).trans hget, hcycle, rfl, rfl, rfl⟩

/-- The delivery of the events of a commit. -/
theorem guarded_deliver : (ask .deliver).Guarded (May cycleKey subjectUid)
    (Hears cycleKey subjectUid) (fun s outcome => s = some db ∧ outcome = .ok ()) (some db) := by
  refine guarded_perform ⟨fun _ => trivial, Or.inl trivial⟩ fun answer s' hs' => ?_
  cases hs' with
  | served hcalm hseals =>
    rename_i response
    have hfailure : response.failure = none := hcalm trivial
    refine ⟨by rw [fst_answer_of_quiet .deliver trivial], ?_⟩
    unfold CycleDatabase.answer
    dsimp only
    rw [hfailure]
    rfl

/-- The `COMMITTED` save over the row of the run, which it leaves settled. -/
theorem guarded_committedSave (snapshotUid commitUid : Uid) (details : Details)
    (hrow : ∃ r, db.get cycleKey subjectUid = some r ∧ r.cycleUid = saved.cycleUid ∧
      r.status = .running) :
    (saveCheckpoint saved .completed (some .committed) (some snapshotUid) (some commitUid) none
      details).Guarded (May cycleKey subjectUid) (Hears cycleKey subjectUid)
      (fun s outcome => ∃ a, outcome = .ok a ∧ LeavesSettled cycleKey subjectUid s outcome)
      (some db) := by
  have hcommitted : CycleStatus.committed ≠ .failed := by decide
  refine (guarded_closingSave (saved.updated .completed (some .committed) (some snapshotUid)
    (some commitUid) none details) (Or.inr rfl) hrow hcommitted).mono ?_
  rintro _ _ ⟨db', saved', r, rfl, rfl, hr, -, hstatus, hcommit, -⟩
  refine ⟨saved', rfl, fun db'' hdb r' hr' => ?_⟩
  cases hdb
  cases hr.symm.trans hr'
  exact Or.inl ⟨commitUid, hstatus, hcommit⟩

/-- The commit of a snapshot : before it the run can only fail a snapshot without a commit, and
after it the run saves the row as `COMMITTED`. -/
theorem keepsTurn_commitSnapshot (h : Held cycleKey subjectUid db checkpoint)
    (hrunning : RunningRow cycleKey subjectUid db checkpoint) {snapshotUid : Uid}
    (hnew : ¬db.Committed snapshotUid) (metric : OfficialMetricOutput) :
    KeepsTurn cycleKey subjectUid (c.commitSnapshot snapshotUid metric checkpoint) (some db) := by
  obtain ⟨r, hr, hcycle, hstatus⟩ := hrunning.row
  unfold CycleInput.commitSnapshot
  refine Guarded.handle (Q := fun s outcome => ∃ db', s = some db' ∧
    ((∃ e, outcome = .error e ∧ db' = db) ∨ ∃ result, outcome = .ok result ∧
      db'.get cycleKey subjectUid = db.get cycleKey subjectUid)) ?_ ?_ ?_
  · refine (guarded_quiet (.expectedProjectionVersion _) trivial h.settled).bind ?_ ?_
    · rintro _ e rfl
      exact ⟨db, rfl, Or.inl ⟨e, rfl, rfl⟩⟩
    rintro _ version rfl
    refine guarded_perform ⟨fun newUid _ r' hr' hfailed => ?_, Or.inr h.settled⟩
      fun answer s' hs' => ?_
    · cases hr.symm.trans hr'
      exact absurd (hstatus.symm.trans hfailed.1) (by decide)
    · cases hs' with
      | served hcalm hseals =>
        refine ⟨_, rfl, ?_⟩
        rcases @answer_commit cycleKey subjectUid _ _ _ hcalm hnew with herror | hok
        · exact Or.inl herror
        · exact Or.inr hok
  · rintro _ e ⟨db', rfl, ⟨-, -, rfl⟩ | ⟨result, hok, -⟩⟩
    · exact keepsTurn_recordFailure h e
    · cases hok
  rintro _ commit ⟨db', rfl, ⟨e, herror, -⟩ | ⟨result, -, hget⟩⟩
  · cases herror
  refine (guarded_closingSave (checkpoint.updated .eventOutbox (some .running)
    (some snapshotUid) (some commit.commitUid) none (CycleInput.commitDetails commit))
    (Or.inl rfl) ⟨r, hget.trans hr, hcycle, hstatus⟩
    (by change CycleStatus.running ≠ _; decide)).handle ?_ ?_
  · rintro _ e ⟨_, _, _, -, hok, -⟩
    cases hok
  rintro _ saved ⟨db₁, saved', r₁, rfl, hok, hr₁, hcycle₁, hstatus₁, -, hsaved⟩
  cases hok
  refine Guarded.handle (Q := fun s outcome => ∃ a, outcome = .ok a ∧
    LeavesSettled cycleKey subjectUid s outcome) ?_ ?_ ?_
  · have hsave := guarded_committedSave snapshotUid commit.commitUid
      (CycleInput.commitDetails commit) ⟨r₁, hr₁, hcycle₁.trans hsaved.symm, hstatus₁⟩
    dsimp only
    split
    · refine (guarded_deliver).bind ?_ ?_
      · rintro _ e ⟨-, hok⟩
        cases hok
      · rintro _ _ ⟨rfl, -⟩
        exact hsave
    · exact hsave
  · rintro _ e ⟨a, hok, -⟩
    cases hok
  · rintro s' _ ⟨-, -, hsettled⟩
    exact hsettled

/-- A run that raises at a save records it with the checkpoint it saved last. -/
theorem keepsTurn_recordFailure_of_save {db' : CycleDatabase}
    (h : Held cycleKey subjectUid db checkpoint) (hsaved : Held cycleKey subjectUid db' saved)
    (hcycle : saved.cycleUid = checkpoint.cycleUid) (hcommits : db'.commits = db.commits)
    (e : CycleError) :
    KeepsTurn cycleKey subjectUid (recordFailure checkpoint e) (some db') :=
  keepsTurn_recordFailure (hsaved.of_own hcycle fun uid hmem =>
    mt (committed_congr hcommits).mp (h.own uid hmem)) e

/-- What the metrics say fails the snapshot or commits it. -/
theorem keepsTurn_afterMetrics (h : Held cycleKey subjectUid db checkpoint)
    (hrunning : RunningRow cycleKey subjectUid db checkpoint) {snapshotUid : Uid}
    (hnew : ¬db.Committed snapshotUid) (metric : OfficialMetricOutput) :
    KeepsTurn cycleKey subjectUid (c.afterMetrics snapshotUid metric checkpoint) (some db) := by
  have hown : ∀ uid ∈ some snapshotUid, ¬db.Committed uid := fun uid hmem => by
    cases hmem
    exact hnew
  have hfailed : CycleStatus.failed ≠ .committed := by decide
  have hfail : ∀ code details, ∀ result : OfficialCycleResult, KeepsTurn cycleKey subjectUid
      ((saveCheckpoint checkpoint .failed (some .failed) (some snapshotUid) none (some code)
        details).handle (recordFailure checkpoint) fun _ => .pure result) (some db) := by
    intro code details result
    refine (guarded_save (checkpoint.updated .failed (some .failed) (some snapshotUid) none
      (some code) details) h rfl hfailed hown).handle ?_ ?_
    · rintro _ e ⟨db', rfl, hsaved, hcommits, -⟩
      exact keepsTurn_recordFailure_of_save h hsaved rfl hcommits e
    · rintro _ saved ⟨db', rfl, hsaved, -⟩ db'' hdb
      cases hdb
      exact hsaved.settled
  have hstatus : checkpoint.status ≠ .committed := by
    rw [hrunning.status]
    decide
  unfold CycleInput.afterMetrics
  split_ifs
  · exact hfail _ _ _
  · exact hfail _ _ _
  refine (guarded_save (checkpoint.updated .analysisCommit none (some snapshotUid) none none
    _) h rfl hstatus hown).handle ?_ ?_
  · rintro _ e ⟨db', rfl, hsaved, hcommits, -⟩
    exact keepsTurn_recordFailure_of_save h hsaved rfl hcommits e
  · rintro _ saved ⟨db', rfl, -, hcommits, hok⟩
    obtain ⟨hrow, hheld, -⟩ := hok saved rfl hrunning.status
    exact keepsTurn_commitSnapshot hheld hrow (mt (committed_congr hcommits).mp hnew) metric

/-- A cycle that has begun keeps to its turn. -/
theorem keepsTurn_snapshot (h : Held cycleKey subjectUid db checkpoint)
    (hrunning : RunningRow cycleKey subjectUid db checkpoint) (threshold : StageStatus) :
    KeepsTurn cycleKey subjectUid
      ((c.sealedSnapshot checkpoint threshold).handle (recordFailure checkpoint)
        fun (snapshotUid, checkpoint) =>
      (c.officialMetrics snapshotUid threshold).handle (recordFailure checkpoint) fun metric =>
      c.afterMetrics snapshotUid metric checkpoint) (some db) := by
  refine (guarded_sealedSnapshot h hrunning threshold).handle ?_ ?_
  · rintro _ e ⟨db', rfl, hheld, -⟩
    exact keepsTurn_recordFailure hheld e
  rintro _ ⟨snapshotUid, saved⟩ ⟨db', rfl, -, hok⟩
  obtain ⟨hheld, hrow, hnew⟩ := hok _ rfl
  refine (guarded_officialMetrics hheld.settled snapshotUid threshold).handle ?_ ?_
  · rintro _ e rfl
    exact keepsTurn_recordFailure hheld e
  · rintro _ metric rfl
    exact keepsTurn_afterMetrics hheld hrow hnew metric

/-! ## Runs -/

/-- A row the run can go on with. -/
theorem held_of_running (hstatus : checkpoint.status = .running)
    (hget : db.get cycleKey subjectUid = some checkpoint)
    (hown : ∀ snapshotUid ∈ checkpoint.snapshotUid, ¬db.Committed snapshotUid) :
    Held cycleKey subjectUid db checkpoint ∧ RunningRow cycleKey subjectUid db checkpoint := by
  have hnot : checkpoint.status ≠ .committed := by
    rw [hstatus]
    decide
  exact ⟨⟨⟨checkpoint, hget, rfl, hnot, hown⟩, hown⟩, ⟨checkpoint, hget, rfl, hstatus⟩, hstatus⟩

/-- What `begin` does to a settled row : it leaves it settled, and it returns a committed row or
one the run can go on with. -/
theorem begin_of_settled (h : db.Settled cycleKey subjectUid) (newUid : Uid) (t : Instant) :
    (db.beginCycle newUid cycleKey subjectUid t).1.Settled cycleKey subjectUid ∧
      ∀ begun, (db.beginCycle newUid cycleKey subjectUid t).2 = .ok begun →
        begun.status = .committed ∨
          Held cycleKey subjectUid (db.beginCycle newUid cycleKey subjectUid t).1 begun ∧
            RunningRow cycleKey subjectUid (db.beginCycle newUid cycleKey subjectUid t).1
              begun := by
  unfold CycleDatabase.beginCycle
  cases hrow : db.get cycleKey subjectUid with
  | some existing =>
    dsimp only
    split
    · rename_i hstatus
      exact ⟨h, fun begun hok => by cases hok; exact Or.inl hstatus⟩
    rename_i hstatus
    have hnot : ¬∃ commitUid, existing.CommittedWith commitUid := by
      rintro ⟨_, hcommitted⟩
      exact hstatus hcommitted.1
    have hown := ((h existing hrow).resolve_left hnot).2
    have hget : (db.updateCycle existing.cycleUid (CycleDatabase.reopened t)
        (CycleDatabase.reopened_cycleUid t)).get cycleKey subjectUid =
          some (CycleDatabase.reopened t existing) := by
      rw [CycleDatabase.get_updateCycle (CycleDatabase.reopened_cycleUid t) (fun _ => rfl)
        fun _ => rfl, hrow, Option.map_some, if_pos rfl]
    have hheld := held_of_running rfl hget hown
    exact ⟨hheld.1.settled, fun begun hok => by cases hok; exact Or.inr hheld⟩
  | none =>
    dsimp only
    split
    · rename_i hnamed
      split
      · rename_i hnew
        have hget : (⟨db.cycles ++ [CycleDatabase.firstCheckpoint newUid cycleKey subjectUid t
            hnamed], db.commits, db.unique_append hnew⟩ : CycleDatabase).get cycleKey subjectUid =
              some (CycleDatabase.firstCheckpoint newUid cycleKey subjectUid t hnamed) := by
          rw [CycleDatabase.get_append, hrow, Option.none_or]
          exact if_pos ⟨rfl, rfl⟩
        have hheld := held_of_running rfl hget fun uid hmem => by cases hmem
        exact ⟨hheld.1.settled, fun begun hok => by cases hok; exact Or.inr hheld⟩
      · exact ⟨h, fun begun hok => by cases hok⟩
    · exact ⟨h, fun begun hok => by cases hok⟩

/-- The answer of `begin` over a settled row. -/
theorem answer_begin_of_settled (h : db.Settled cycleKey subjectUid) (response : CycleResponse)
    (t : Instant) :
    (db.answer response (.journalBegin cycleKey subjectUid t)).1.Settled cycleKey subjectUid ∧
      ∀ begun : CycleCheckpoint,
        (db.answer response (.journalBegin cycleKey subjectUid t)).2 = .ok begun →
        begun.status = .committed ∨
          Held cycleKey subjectUid
            (db.answer response (.journalBegin cycleKey subjectUid t)).1 begun ∧
          RunningRow cycleKey subjectUid
            (db.answer response (.journalBegin cycleKey subjectUid t)).1 begun := by
  obtain ⟨hsettled, hbegun⟩ := begin_of_settled h response.newUid t
  unfold CycleDatabase.answer
  dsimp only
  split
  · refine ⟨hsettled, fun begun hok => ?_⟩
    split at hok
    · cases hok
    · exact hbegun begun hok
  · rename_i hthrough
    refine ⟨h, fun begun hok => ?_⟩
    split at hok
    · cases hok
    · rename_i hnone
      exact absurd (Or.inl hnone) hthrough

/-- A cycle from its `begin` on. -/
theorem keepsTurn_runOfficial (hkey : c.cycleKey = cycleKey) (hsubject : c.subjectUid = subjectUid)
    (threshold : StageStatus) :
    KeepsTurn cycleKey subjectUid (c.runOfficial threshold) none := by
  subst hkey hsubject
  refine (guarded_perform (Q := fun s outcome => LeavesSettled c.cycleKey c.subjectUid s outcome ∧
    ∀ begun : CycleCheckpoint, outcome = .ok begun → begun.status = .committed ∨
      ∃ db, s = some db ∧ Held c.cycleKey c.subjectUid db begun ∧
        RunningRow c.cycleKey c.subjectUid db begun) ⟨rfl, rfl⟩ fun answer s' hs' => ?_).bind
    (fun _ _ h => h.1) ?_
  · cases hs' with
    | quiet hquiet => exact hquiet.elim
    | refused error => exact ⟨fun db hdb => (by cases hdb), fun begun hok => by cases hok⟩
    | begun response hbegin hsettled =>
      obtain ⟨hleaves, hbegun⟩ := answer_begin_of_settled hsettled response c.observedAt
      refine ⟨fun db hdb => ?_, fun begun hok => ?_⟩
      · cases hdb
        exact hleaves
      · exact (hbegun begun hok).imp_right fun h => ⟨_, rfl, h⟩
  rintro s begun ⟨hleaves, hbegun⟩
  dsimp only
  split
  · exact hleaves
  · rename_i hnot
    obtain ⟨db, rfl, hheld, hrow⟩ := (hbegun begun rfl).resolve_left hnot
    exact keepsTurn_snapshot hheld hrow threshold

/-- A call before a run begins the cycle. -/
theorem guarded_before (op : CycleCall) (hquiet : op.Quiet) :
    (ask op).Guarded (May cycleKey subjectUid) (Hears cycleKey subjectUid)
      (fun s _ => s = none) none := by
  refine guarded_perform ?_ fun answer s' hs' => ?_
  · cases op with
    | journalBegin => exact hquiet.elim
    | _ => exact hquiet
  · cases hs' with
    | quiet => rfl
    | refused => rfl
    | begun response hbegin => exact absurd hquiet hbegin

/-- A run that has not begun the cycle leaves nothing. -/
theorem leavesSettled_none {α : Type} (outcome : Except CycleError α) :
    LeavesSettled cycleKey subjectUid none outcome :=
  fun _ hdb => by cases hdb

theorem keepsTurn_gate {result : Option OfficialCycleResult}
    {rest : CycleProgram OfficialCycleResult} (h : KeepsTurn cycleKey subjectUid rest none) :
    KeepsTurn cycleKey subjectUid (CycleInput.gate result rest) none := by
  cases result with
  | some blocked => exact leavesSettled_none _
  | none => exact h

theorem keepsTurn_before (op : CycleCall) (hquiet : op.Quiet)
    {rest : op.Answer → CycleProgram OfficialCycleResult}
    (h : ∀ a, KeepsTurn cycleKey subjectUid (rest a) none) :
    KeepsTurn cycleKey subjectUid (ask op >>= rest) none := by
  refine (guarded_before op hquiet).bind ?_ ?_
  · rintro _ e rfl
    exact leavesSettled_none _
  · rintro _ a rfl
    exact h a

theorem keepsTurn_passing {name : String} {stage : ReadinessStage}
    {failureReason : Option String} {rest : CycleProgram OfficialCycleResult}
    (h : KeepsTurn cycleKey subjectUid rest none) :
    KeepsTurn cycleKey subjectUid (c.passing name stage failureReason rest) none :=
  keepsTurn_before (.readiness _ _) trivial fun _ => keepsTurn_gate h

theorem keepsTurn_runShadow (threshold : StageStatus) (phase : String) :
    KeepsTurn cycleKey subjectUid (c.runShadow threshold phase) none := by
  refine keepsTurn_before (.sealSnapshot _ _ _) trivial fun snapshotUid => ?_
  refine keepsTurn_before (.runMetrics _ _) trivial fun metric => ?_
  dsimp only
  split
  · exact leavesSettled_none _
  · split
    · exact leavesSettled_none _
    · exact leavesSettled_none _

theorem keepsTurn_runPhase (hkey : c.cycleKey = cycleKey) (hsubject : c.subjectUid = subjectUid) :
    KeepsTurn cycleKey subjectUid c.runPhase none := by
  refine keepsTurn_before (.marketPhase _) trivial fun phase => keepsTurn_gate ?_
  refine keepsTurn_before (.readiness _ _) trivial fun threshold => keepsTurn_gate ?_
  split
  · exact keepsTurn_runShadow threshold phase
  · exact keepsTurn_runOfficial hkey hsubject threshold

theorem keepsTurn_runStages (hkey : c.cycleKey = cycleKey)
    (hsubject : c.subjectUid = subjectUid) :
    KeepsTurn cycleKey subjectUid c.runStages none :=
  keepsTurn_passing <| keepsTurn_gate <| keepsTurn_passing <| keepsTurn_passing <|
    keepsTurn_passing <| keepsTurn_passing <| keepsTurn_passing <|
      keepsTurn_runPhase hkey hsubject

/-- A run of the cycle keeps to its turn, whenever it comes to it. -/
theorem keepsTurn_run (hkey : c.cycleKey = cycleKey) (hsubject : c.subjectUid = subjectUid)
    (closed : Bool) : KeepsTurn cycleKey subjectUid (c.run closed) none := by
  unfold CycleInput.run
  split
  · exact leavesSettled_none _
  split
  · exact leavesSettled_none _
  refine keepsTurn_before (.journalGet _ _) trivial fun existing => ?_
  split
  · split
    · exact leavesSettled_none _
    · exact keepsTurn_runStages hkey hsubject
  · exact keepsTurn_runStages hkey hsubject

end

end MarketMonitor
