import Mathlib.Data.List.Count
import MarketMonitor.Library.Run
import MarketMonitor.Persistence.Values

/-!
# The rate of queries

A query that is new counts the records of its owner from the last minute before it leaves
one of its own. One query runs at a time : it holds the lock from the check to the end of
its analysis, and a call that finds the lock taken is refused.

A query whose record is there without a response runs again, and that is not counted : the
record keeps the time it was created. A query that fails and is retried at once exceeds the
limit (`query_rate_of_retry`). And the record is of the time before the writer is waited for :
an analysis that starts after a long wait counts for an earlier minute than its own
(`query_rate_of_wait`).

In a run without retries and without such waits every execution has a record of its own that
is counted with it, and the limit holds in every minute (`query_rate_of_run`).
-/

namespace MarketMonitor

/-! ## Records of queries -/

inductive QueryStatus where
  | inProgress | completed | failed
  deriving DecidableEq, Repr

/-- `analysis_query_record`, with the name of an exception by its class. -/
structure QueryRecord where
  queryUid : String
  ownerUid : String
  subjectUid : String
  sourceSnapshotUid : String
  queryStatus : QueryStatus
  responseHash : Option String
  responseJson : Option Json.Value
  errorCode : Option ExceptionClass
  createdAt : Instant
  updatedAt : Instant
  completedAt : Option Instant

/-- `_query_row(query_uid)` -/
def queryRow (records : List QueryRecord) (queryUid : String) : Option QueryRecord :=
  records.find? fun row => row.queryUid = queryUid

/-- `UPDATE … WHERE query_uid=? AND query_status=?` -/
def updateQuery (records : List QueryRecord) (queryUid : String) (queryStatus : QueryStatus)
    (update : QueryRecord → QueryRecord) : List QueryRecord :=
  records.map fun row =>
    if row.queryUid = queryUid ∧ row.queryStatus = queryStatus then update row else row

/-- `_validate_query_identity(row, owner_uid, subject_uid)` -/
def validateQueryIdentity (row : QueryRecord) (ownerUid subjectUid : String) : Except Exn Unit :=
  if row.ownerUid ≠ ownerUid ∨ row.subjectUid ≠ subjectUid then
    .error (valueError "query UID belongs to another request")
  else .ok ()

/-- `_stored_response(row)` -/
def storedResponse (row : QueryRecord) : Except Exn Json.Value :=
  match row.responseJson with
  | some (.obj fields) =>
    if some (canonicalHash (.obj fields)) = row.responseHash then .ok (.obj fields)
    else .error ⟨.runtimeError, "stored query response is invalid"⟩
  | _ => .error ⟨.runtimeError, "stored query response is invalid"⟩

/-! ## The service -/

/-- A transaction that `_prepare` submits to the writer. -/
inductive QueryWrite where
  | insert (row : QueryRecord)
  | restart (queryUid : String) (now : Instant)

/-- The transaction, when the writer comes to it. -/
def QueryWrite.run (records : List QueryRecord) : QueryWrite → Except Exn (List QueryRecord)
  | .insert row =>
    match queryRow records row.queryUid with
    | some existing => do
      validateQueryIdentity existing row.ownerUid row.subjectUid
      .ok records
    | none => .ok (records ++ [row])
  | .restart queryUid now =>
    .ok (updateQuery records queryUid .failed fun row =>
      { row with
        queryStatus := .inProgress
        responseHash := none
        responseJson := none
        errorCode := none
        updatedAt := now
        completedAt := none })

/-- How `_prepare` goes on : with a stored response, with a record that is in progress, or with
a transaction. -/
inductive Preparation where
  | replay (response : Json.Value)
  | retry
  | submit (write : QueryWrite)

structure QueryService where
  maxQueriesPerMinute : ℕ
  positive : 0 < maxQueriesPerMinute

/-- A call of `analyze` : its arguments, and the snapshot `_source` finds for the subject. -/
structure QueryCall where
  ownerUid : String
  subjectUid : String
  queryUid : String
  source : Except Exn String

namespace QueryService

/-- `_check_rate(owner_uid)` -/
def checkRate (service : QueryService) (records : List QueryRecord) (ownerUid : String)
    (now : Instant) : Except Exn Unit :=
  let since := now - minutes 1
  let count := records.countP fun row => row.ownerUid = ownerUid ∧ since ≤ row.createdAt
  if service.maxQueriesPerMinute ≤ count then
    .error ⟨.queryRateLimitError, "analysis query rate limit exceeded"⟩
  else .ok ()

/-- `_prepare(query_uid, owner_uid, subject_uid)` up to the writer, with the readings of the
clock : the source snapshot, and what goes on from there. -/
def prepare (service : QueryService) (records : List QueryRecord) (call : QueryCall)
    (first second : Instant) : Except Exn (String × Preparation) :=
  match queryRow records call.queryUid with
  | some existing => do
    validateQueryIdentity existing call.ownerUid call.subjectUid
    match existing.queryStatus with
    | .completed =>
      let response ← storedResponse existing
      .ok (existing.sourceSnapshotUid, .replay response)
    | .failed =>
      .ok (existing.sourceSnapshotUid, .submit (.restart call.queryUid first))
    | .inProgress => .ok (existing.sourceSnapshotUid, .retry)
  | none => do
    service.checkRate records call.ownerUid first
    let sourceSnapshotUid ← call.source
    .ok (sourceSnapshotUid, .submit <| .insert
      { queryUid := call.queryUid
        ownerUid := call.ownerUid
        subjectUid := call.subjectUid
        sourceSnapshotUid := sourceSnapshotUid
        queryStatus := .inProgress
        responseHash := none
        responseJson := none
        errorCode := none
        createdAt := second
        updatedAt := second
        completedAt := none })

/-- `_complete`, or the error it raises. -/
def complete (records : List QueryRecord) (queryUid : String) (response : Json.Value)
    (now : Instant) : Except Exn (List QueryRecord) :=
  match queryRow records queryUid with
  | none => .error ⟨.noResultFound, "No row was found when one was required"⟩
  | some row =>
    match row.queryStatus with
    | .completed => do
      let _ ← storedResponse row
      .ok records
    | .failed => .error ⟨.runtimeError, "query completion state changed"⟩
    | .inProgress =>
      .ok (updateQuery records queryUid .inProgress fun row =>
        { row with
          queryStatus := .completed
          responseHash := some (canonicalHash response)
          responseJson := some response
          errorCode := none
          updatedAt := now
          completedAt := some now })

/-- `_fail(query_uid, owner_uid, subject_uid, error_code)`, or the error it raises. -/
def fail (records : List QueryRecord) (call : QueryCall) (errorCode : ExceptionClass)
    (now : Instant) : Except Exn (List QueryRecord) :=
  match queryRow records call.queryUid with
  | none => .ok records
  | some row => do
    validateQueryIdentity row call.ownerUid call.subjectUid
    match row.queryStatus with
    | .failed | .completed => .ok records
    | .inProgress =>
      .ok (updateQuery records call.queryUid .inProgress fun row =>
        { row with
          queryStatus := .failed
          responseHash := none
          responseJson := none
          errorCode := some errorCode
          updatedAt := now
          completedAt := some now })

end QueryService

/-! ## Calls after calls -/

/-- The call that has the lock : it waits for the writer, which has run its transaction or not,
or its analysis runs. -/
inductive QueryRunning where
  | preparing (call : QueryCall) (write : QueryWrite) (written : Bool)
  | analyzing (call : QueryCall)

def QueryRunning.call : QueryRunning → QueryCall
  | preparing call _ _ => call
  | analyzing call => call

/-- An execution of the analysis : its owner, the time of its record, and the time it got past
`_prepare`. -/
structure QueryExecution where
  ownerUid : String
  createdAt : Instant
  startedAt : Instant

/-- The service and its records. The executions are kept for the property. -/
structure QueryState where
  clock : Instant
  records : List QueryRecord
  running : Option QueryRunning
  executions : List QueryExecution

/-- What happens to the service. -/
inductive QueryStep where
  /-- A call, with the time between its two readings of the clock. -/
  | analyze (call : QueryCall) (between : ℕ)
  /-- The writer runs the transaction of the call that has the lock. -/
  | write
  /-- The call gets past `_prepare`. -/
  | prepared
  /-- The analysis that runs has a response. -/
  | complete (response : Json.Value)
  /-- The call that has the lock raises an exception of that class. -/
  | raise (errorCode : ExceptionClass)
  /-- The process ends and is started again. -/
  | restart

/-- A step, and the time that has passed since the one before. -/
structure QueryEvent where
  elapsed : ℕ
  step : QueryStep

namespace QueryState

/-- The records after `except Exception`, which are as they were when `_fail` raises. -/
def failed (s : QueryState) (call : QueryCall) (errorCode : ExceptionClass) :
    QueryState :=
  match QueryService.fail s.records call errorCode s.clock with
  | .ok records => { s with records, running := none }
  | .error _ => { s with running := none }

/-- A call that got past `_prepare` without a stored response. -/
def executes (s : QueryState) (call : QueryCall) : QueryState :=
  let createdAt := ((queryRow s.records call.queryUid).map QueryRecord.createdAt).getD s.clock
  { s with
    running := some (.analyzing call)
    executions := s.executions ++ [⟨call.ownerUid, createdAt, s.clock⟩] }

/-- A call that has taken the lock. -/
def analyze (service : QueryService) (s : QueryState) (call : QueryCall) (between : ℕ) :
    QueryState :=
  let prepared := service.prepare s.records call s.clock (s.clock + between)
  let s := { s with clock := s.clock + between }
  match prepared with
  | .error error => s.failed call error.cls
  | .ok (_, .replay _) => s
  | .ok (_, .retry) => s.executes call
  | .ok (_, .submit write) => { s with running := some (.preparing call write false) }

/-- What a step does. A step of a call that has not come to it changes nothing. -/
def next (service : QueryService) (e : QueryEvent) (s : QueryState) : QueryState :=
  let s := { s with clock := s.clock + e.elapsed }
  match e.step, s.running with
  | .analyze call between, none =>
    if call.queryUid.length ≠ 36 then s else s.analyze service call between
  | .write, some (.preparing call write false) =>
    match write.run s.records with
    | .ok records => { s with records, running := some (.preparing call write true) }
    | .error error => s.failed call error.cls
  | .prepared, some (.preparing call _ true) => s.executes call
  | .complete response, some (.analyzing call) =>
    match QueryService.complete s.records call.queryUid response s.clock with
    | .ok records => { s with records, running := none }
    | .error error => s.failed call error.cls
  | .raise errorCode, some running => s.failed running.call errorCode
  | .restart, _ => { s with running := none }
  | _, _ => s

/-- A service without queries. -/
def fresh (clock : Instant) : QueryState := ⟨clock, [], none, []⟩

/-- The executions of an owner in the minute that starts at a time, both ends included. -/
def executionsIn (s : QueryState) (ownerUid : String) (start : Instant) : ℕ :=
  s.executions.countP fun x =>
    x.ownerUid = ownerUid ∧ start ≤ x.startedAt ∧ x.startedAt ≤ start + minutes 1

end QueryState

/-- A run of the service. -/
abbrev QueryRun (service : QueryService) :=
  Run fun (e : QueryEvent) (s s' : QueryState) => s' = s.next service e

/-- No owner has more executions in a minute than the limit. -/
def RateBounded (service : QueryService) (s : QueryState) : Prop :=
  ∀ ownerUid start, s.executionsIn ownerUid start ≤ service.maxQueriesPerMinute

/-- The step is no call for a query of the same owner and subject that is there without a
response. -/
def RetriesNothing (s : QueryState) (e : QueryEvent) : Prop :=
  ∀ call between, e.step = .analyze call between → s.running = none →
    ∀ row, queryRow s.records call.queryUid = some row → row.ownerUid = call.ownerUid →
      row.subjectUid = call.subjectUid → row.queryStatus = .completed

/-- When the step is a call for a new query, its owner has no execution of the last minute whose
record is older : none has waited for the writer over the start of that minute. -/
def WaitsInTime (s : QueryState) (e : QueryEvent) : Prop :=
  ∀ call between, e.step = .analyze call between → s.running = none →
    queryRow s.records call.queryUid = none →
    ∀ x ∈ s.executions, x.ownerUid = call.ownerUid →
      s.clock + e.elapsed - minutes 1 ≤ x.startedAt →
      s.clock + e.elapsed - minutes 1 ≤ x.createdAt

/-! ## Executions and records -/

/-- The owner and the time a record counts for. -/
def QueryRecord.counted (row : QueryRecord) : String × Instant := (row.ownerUid, row.createdAt)

/-- The owner and the time an execution is counted for. -/
def QueryExecution.counted (x : QueryExecution) : String × Instant := (x.ownerUid, x.createdAt)

/-- An update that keeps what counts leaves the counted rows. -/
theorem map_counted_updateQuery (records : List QueryRecord) (queryUid : String)
    (queryStatus : QueryStatus) {update : QueryRecord → QueryRecord}
    (hkeep : ∀ row, (update row).counted = row.counted) :
    (updateQuery records queryUid queryStatus update).map QueryRecord.counted =
      records.map QueryRecord.counted := by
  rw [updateQuery, List.map_map]
  refine List.map_congr_left fun row _ => ?_
  rw [Function.comp_apply]
  split_ifs
  · exact hkeep row
  · rfl

/-- `_complete` keeps the times of the records. -/
theorem counted_of_complete {records records' : List QueryRecord} {queryUid : String}
    {response : Json.Value} {now : Instant}
    (h : QueryService.complete records queryUid response now = .ok records') :
    records'.map QueryRecord.counted = records.map QueryRecord.counted := by
  unfold QueryService.complete at h
  split at h
  case h_1 => cases h
  case h_2 row _ =>
    split at h
    case h_1 =>
      cases hstored : storedResponse row with
      | error error => rw [hstored] at h; cases h
      | ok response => rw [hstored] at h; cases h; rfl
    case h_2 => cases h
    case h_3 =>
      cases h
      exact map_counted_updateQuery _ _ _ fun _ => rfl

/-- `_fail` keeps the times of the records. -/
theorem counted_of_fail {records records' : List QueryRecord} {call : QueryCall}
    {errorCode : ExceptionClass} {now : Instant}
    (h : QueryService.fail records call errorCode now = .ok records') :
    records'.map QueryRecord.counted = records.map QueryRecord.counted := by
  unfold QueryService.fail at h
  split at h
  case h_1 => cases h; rfl
  case h_2 row _ =>
    cases hvalid : validateQueryIdentity row call.ownerUid call.subjectUid with
    | error error => rw [hvalid] at h; cases h
    | ok _ =>
      rw [hvalid] at h
      dsimp only [Except.bind, bind] at h
      split at h
      case h_3 =>
        cases h
        exact map_counted_updateQuery _ _ _ fun _ => rfl
      all_goals
        cases h
        rfl

/-- What `_prepare` goes on with when it retries nothing : a stored response, or the record of a
query that was counted. -/
theorem prepare_cases {service : QueryService} {records : List QueryRecord} {call : QueryCall}
    {first second : Instant} {sourceSnapshotUid : String} {preparation : Preparation}
    (hretry : ∀ row, queryRow records call.queryUid = some row → row.ownerUid = call.ownerUid →
      row.subjectUid = call.subjectUid → row.queryStatus = .completed)
    (h : service.prepare records call first second = .ok (sourceSnapshotUid, preparation)) :
    (∃ response, preparation = .replay response) ∨
      ∃ row : QueryRecord, preparation = .submit (.insert row) ∧
        row.ownerUid = call.ownerUid ∧ row.queryUid = call.queryUid ∧
        queryRow records call.queryUid = none ∧
        service.checkRate records call.ownerUid first = .ok () := by
  unfold QueryService.prepare at h
  split at h
  case h_1 existing hrow =>
    by_cases hidentity : existing.ownerUid ≠ call.ownerUid ∨ existing.subjectUid ≠ call.subjectUid
    · rw [validateQueryIdentity, if_pos hidentity] at h
      cases h
    · have hcompleted := hretry existing hrow (by tauto) (by tauto)
      rw [validateQueryIdentity, if_neg hidentity, hcompleted] at h
      cases hstored : storedResponse existing with
      | error error => rw [hstored] at h; cases h
      | ok response =>
        rw [hstored] at h
        cases h
        exact .inl ⟨response, rfl⟩
  case h_2 hnone =>
    cases hrate : service.checkRate records call.ownerUid first with
    | error error => rw [hrate] at h; cases h
    | ok _ =>
      cases hsource : call.source with
      | error error => rw [hrate, hsource] at h; cases h
      | ok source =>
        rw [hrate, hsource] at h
        cases h
        exact .inr ⟨_, rfl, rfl, rfl, hnone, rfl⟩

/-! ## The invariant -/

/-- The record that a call has left which has not got past `_prepare` yet. -/
def QueryRunning.left : Option QueryRunning → List (String × Instant)
  | some (.preparing _ (.insert row) true) => [row.counted]
  | _ => []

/-- A call that passed the check and waits for the writer to insert its record. -/
structure QueryState.Admitted (service : QueryService) (s : QueryState) (call : QueryCall)
    (row : QueryRecord) (written : Bool) : Prop where
  owner : row.ownerUid = call.ownerUid
  query : row.queryUid = call.queryUid
  absent : written = false → queryRow s.records call.queryUid = none
  inserted : written = true → queryRow s.records call.queryUid = some row
  room : ∃ checkedAt ≤ s.clock, s.executions.countP (fun x =>
    x.ownerUid = call.ownerUid ∧ checkedAt - minutes 1 ≤ x.startedAt) <
      service.maxQueriesPerMinute

/-- Every execution has its own record, none is later than the clock, no minute has more of them
than the limit, and there is room for the call that waits for the writer. -/
structure RateInv (service : QueryService) (s : QueryState) : Prop where
  recorded : (s.executions.map QueryExecution.counted ++ QueryRunning.left s.running).Sublist
    (s.records.map QueryRecord.counted)
  past : ∀ x ∈ s.executions, x.startedAt ≤ s.clock
  bounded : RateBounded service s
  waiting : ∀ call write written, s.running = some (.preparing call write written) →
    ∃ row, write = .insert row ∧ s.Admitted service call row written

theorem rateInv_fresh (service : QueryService) (clock : Instant) :
    RateInv service (QueryState.fresh clock) where
  recorded := List.Sublist.refl _
  past _ hx := nomatch hx
  bounded _ _ := Nat.zero_le _
  waiting _ _ _ hrunning := nomatch hrunning

variable {service : QueryService} {s : QueryState} {call : QueryCall} {row : QueryRecord}

/-- Time passes. -/
theorem RateInv.later (h : RateInv service s) {clock : Instant} (hclock : s.clock ≤ clock) :
    RateInv service { s with clock } where
  recorded := h.recorded
  past x hx := (h.past x hx).trans hclock
  bounded := h.bounded
  waiting call write written hrunning := by
    obtain ⟨row, hwrite, hadmitted⟩ := h.waiting call write written hrunning
    obtain ⟨checkedAt, hchecked, hroom⟩ := hadmitted.room
    exact ⟨row, hwrite, hadmitted.owner, hadmitted.query, hadmitted.absent, hadmitted.inserted,
      checkedAt, hchecked.trans hclock, hroom⟩

theorem RateInv.executions_recorded (h : RateInv service s) :
    (s.executions.map QueryExecution.counted).Sublist (s.records.map QueryRecord.counted) :=
  (List.sublist_append_left _ _).trans h.recorded

/-- What else the records say does not matter to a call that does not wait. -/
theorem RateInv.keeps (h : RateInv service s) {records : List QueryRecord}
    (hrecords : records.map QueryRecord.counted = s.records.map QueryRecord.counted) :
    RateInv service { s with records, running := none } where
  recorded := by
    change (s.executions.map QueryExecution.counted ++ []).Sublist _
    rw [hrecords, List.append_nil]
    exact h.executions_recorded
  past := h.past
  bounded := h.bounded
  waiting _ _ _ hrunning := nomatch hrunning

theorem RateInv.failed (h : RateInv service s) (call : QueryCall) (errorCode : ExceptionClass) :
    RateInv service (s.failed call errorCode) := by
  unfold QueryState.failed
  split
  case h_1 records hrecords => exact h.keeps (counted_of_fail hrecords)
  case h_2 => exact h.keeps rfl

/-- A query that passes the check waits with room for it. -/
theorem RateInv.admitted (h : RateInv service s) (hrunning : s.running = none)
    (howner : row.ownerUid = call.ownerUid) (hquery : row.queryUid = call.queryUid)
    (hnone : queryRow s.records call.queryUid = none)
    (hrate : service.checkRate s.records call.ownerUid s.clock = .ok ())
    (hwaits : ∀ x ∈ s.executions, x.ownerUid = call.ownerUid →
      s.clock - minutes 1 ≤ x.startedAt → s.clock - minutes 1 ≤ x.createdAt) :
    RateInv service { s with running := some (.preparing call (.insert row) false) } where
  recorded := by
    have hrecorded := h.recorded
    rw [hrunning] at hrecorded
    exact hrecorded
  past := h.past
  bounded := h.bounded
  waiting call' write written hwaiting := by
    cases hwaiting
    refine ⟨row, rfl, howner, hquery, fun _ => hnone, (fun hwritten => by cases hwritten),
      s.clock, le_rfl, ?_⟩
    -- The executions of the last minute are counted by their records.
    have hcounted : s.executions.countP (fun x => x.ownerUid = call.ownerUid ∧
        s.clock - minutes 1 ≤ x.startedAt) ≤ (s.executions.map QueryExecution.counted).countP
          fun e => e.1 = call.ownerUid ∧ s.clock - minutes 1 ≤ e.2 := by
      rw [List.countP_map]
      refine List.countP_mono_left fun x hx hin => ?_
      obtain ⟨hsame, hfrom⟩ := of_decide_eq_true hin
      exact decide_eq_true ⟨hsame, hwaits x hx hsame hfrom⟩
    refine (hcounted.trans h.executions_recorded.countP_le).trans_lt ?_
    rw [List.countP_map]
    by_contra hfull
    have hrefused : service.checkRate s.records call.ownerUid s.clock = .error _ :=
      if_pos (not_lt.mp hfull)
    cases hrefused.symm.trans hrate

/-- The writer inserts the record. -/
theorem RateInv.insert (h : RateInv service s)
    (hrunning : s.running = some (.preparing call (.insert row) false)) :
    RateInv service { s with
      records := s.records ++ [row]
      running := some (.preparing call (.insert row) true) } where
  recorded := by
    have hrecorded := h.recorded
    rw [hrunning] at hrecorded
    rw [List.map_append]
    exact (List.append_nil _ ▸ hrecorded).append (List.Sublist.refl _)
  past := h.past
  bounded := h.bounded
  waiting call' write written hwaiting := by
    cases hwaiting
    obtain ⟨_, hrow, hadmitted⟩ := h.waiting _ _ _ hrunning
    cases hrow
    refine ⟨row, rfl, hadmitted.owner, hadmitted.query, (fun hwritten => by cases hwritten),
      fun _ => ?_, hadmitted.room⟩
    have habsent : s.records.find? (fun r => r.queryUid = call.queryUid) = none :=
      hadmitted.absent rfl
    rw [queryRow, List.find?_append, habsent, Option.none_or]
    exact List.find?_cons_of_pos (decide_eq_true hadmitted.query)

/-- A query that gets past `_prepare` finds room in every minute that is not over. -/
theorem RateInv.executes (h : RateInv service s)
    (hrunning : s.running = some (.preparing call (.insert row) true)) :
    RateInv service (s.executes call) := by
  obtain ⟨_, hrow, hadmitted⟩ := h.waiting _ _ _ hrunning
  cases hrow
  obtain ⟨checkedAt, hchecked, hroom⟩ := hadmitted.room
  have hrecorded := h.recorded
  rw [hrunning] at hrecorded
  have hexecutes : s.executes call = { s with
      running := some (.analyzing call)
      executions := s.executions ++ [⟨call.ownerUid, row.createdAt, s.clock⟩] } := by
    unfold QueryState.executes
    rw [hadmitted.inserted rfl]
    rfl
  rw [hexecutes]
  refine ⟨?_, fun x hx => ?_, fun ownerUid start => ?_, fun _ _ _ hwaiting => nomatch hwaiting⟩
  · have hleft : QueryRunning.left (some (.preparing call (.insert row) true)) =
        [(call.ownerUid, row.createdAt)] := by
      rw [QueryRunning.left, QueryRecord.counted, hadmitted.owner]
    rw [hleft] at hrecorded
    rw [List.map_append, List.append_assoc]
    exact hrecorded
  · rcases List.mem_append.mp hx with hx | hx
    · exact h.past x hx
    · rw [List.mem_singleton.mp hx]
  · have hbounded := h.bounded ownerUid start
    unfold QueryState.executionsIn at hbounded ⊢
    rw [List.countP_append, List.countP_singleton]
    split_ifs with hcounts
    · -- The minute has the execution in it, so there was room for it at the check.
      obtain ⟨rfl, -, hend⟩ := of_decide_eq_true hcounts
      have hstart : checkedAt - minutes 1 ≤ start :=
        Nat.sub_le_iff_le_add.mpr (hchecked.trans hend)
      refine Nat.succ_le_of_lt (lt_of_le_of_lt ?_ hroom)
      refine List.countP_mono_left fun x _ hin => ?_
      obtain ⟨howner, hfrom, -⟩ := of_decide_eq_true hin
      exact decide_eq_true ⟨howner, hstart.trans hfrom⟩
    · exact hbounded

/-! ## Steps -/

/-- A call that takes the lock keeps the limit when it retries nothing and its owner has waited
in time. -/
theorem RateInv.analyze (h : RateInv service s) (hrunning : s.running = none) {between : ℕ}
    (hretry : ∀ row, queryRow s.records call.queryUid = some row → row.ownerUid = call.ownerUid →
      row.subjectUid = call.subjectUid → row.queryStatus = .completed)
    (hwaits : queryRow s.records call.queryUid = none → ∀ x ∈ s.executions,
      x.ownerUid = call.ownerUid → s.clock - minutes 1 ≤ x.startedAt →
      s.clock - minutes 1 ≤ x.createdAt) :
    RateInv service (s.analyze service call between) := by
  have hlater := h.later (Nat.le_add_right s.clock between)
  unfold QueryState.analyze
  dsimp only
  split
  case h_1 error _ => exact hlater.failed call error.cls
  case h_2 => exact hlater
  case h_3 hprepare =>
    obtain ⟨_, hreplay⟩ | ⟨_, hsubmit, -⟩ := prepare_cases hretry hprepare
    · cases hreplay
    · cases hsubmit
  case h_4 hprepare =>
    obtain ⟨_, hreplay⟩ | ⟨row, hsubmit, howner, hquery, hnone, hrate⟩ :=
      prepare_cases hretry hprepare
    · cases hreplay
    · cases hsubmit
      exact (h.admitted hrunning howner hquery hnone hrate (hwaits hnone)).later
        (Nat.le_add_right s.clock between)

/-- The invariant holds after a step that retries nothing and waits in time. -/
theorem RateInv.next (h : RateInv service s) {e : QueryEvent} (hretry : RetriesNothing s e)
    (hwaits : WaitsInTime s e) : RateInv service (s.next service e) := by
  have hidle := h.later (Nat.le_add_right s.clock e.elapsed)
  unfold QueryState.next
  dsimp only
  split
  case h_1 call between hstep hrunning =>
    split
    case isTrue => exact hidle
    case isFalse =>
      exact hidle.analyze hrunning (hretry call between hstep hrunning)
        (hwaits call between hstep hrunning)
  case h_2 call write _ hrunning =>
    obtain ⟨row, rfl, hadmitted⟩ := h.waiting _ _ _ hrunning
    have hnone : queryRow s.records row.queryUid = none :=
      hadmitted.query ▸ hadmitted.absent rfl
    have hrun : (QueryWrite.insert row).run s.records = .ok (s.records ++ [row]) := by
      rw [QueryWrite.run, hnone]
    rw [hrun]
    exact hidle.insert hrunning
  case h_3 call write _ hrunning =>
    obtain ⟨row, rfl, -⟩ := h.waiting _ _ _ hrunning
    exact hidle.executes hrunning
  case h_4 response call _ _ =>
    split
    case h_1 records hrecords => exact hidle.keeps (counted_of_complete hrecords)
    case h_2 error _ => exact hidle.failed call error.cls
  case h_5 errorCode running _ _ => exact hidle.failed running.call errorCode
  case h_6 => exact hidle.keeps rfl
  case h_7 => exact hidle

/-! ## Runs -/

/-- The limit holds in every minute of a run whose calls retry nothing and wait in time. -/
theorem query_rate_of_run (run : QueryRun service) {clock : Instant}
    (hstart : run.state 0 = QueryState.fresh clock)
    (hretry : ∀ n, RetriesNothing (run.state n) (run.event n))
    (hwaits : ∀ n, WaitsInTime (run.state n) (run.event n)) (n : ℕ) :
    RateBounded service (run.state n) := by
  have hinv : ∀ n, RateInv service (run.state n) := by
    intro n
    induction n with
    | zero => exact hstart ▸ rateInv_fresh service clock
    | succ n ih => exact run.steps n ▸ ih.next (hretry n) (hwaits n)
  exact (hinv n).bounded

/-- A service that allows so many queries a minute. -/
def queryService (maxQueriesPerMinute : ℕ) (positive : 0 < maxQueriesPerMinute) : QueryService :=
  ⟨maxQueriesPerMinute, positive⟩

/-- A query of an owner. -/
def ownerQuery (queryUid : String) : QueryCall :=
  ⟨"owner", "subject", queryUid, .ok "snapshot"⟩

/-- The run of some steps, each so many seconds after the one before. -/
def queryRun (service : QueryService) (steps : List (ℕ × QueryStep)) : QueryRun service :=
  Run.ofEvents (fun e s => s.next service e) (QueryState.fresh 0)
    (fun n =>
      let (seconds, step) := steps.getD n (1, .restart)
      ⟨seconds * microsPerSecond, step⟩) fun _ _ => rfl

/-- Two queries of an owner of whom two a minute are allowed, the second one a second after the
first one is answered. -/
def answeredRun : QueryRun (queryService 2 (by decide)) :=
  queryRun _ [(1, .analyze (ownerQuery "00000000-0000-7000-8000-000000000001") 5), (1, .write),
    (1, .prepared), (1, .complete (.obj [])),
    (1, .analyze (ownerQuery "00000000-0000-7000-8000-000000000002") 5), (1, .write),
    (1, .prepared)]

/-- The calls of the answered run. -/
theorem answeredRun_analyze {n between : ℕ}
    (h : (answeredRun.event n).step = .analyze call between) :
    n = 0 ∧ call = ownerQuery "00000000-0000-7000-8000-000000000001" ∨
      n = 4 ∧ call = ownerQuery "00000000-0000-7000-8000-000000000002" := by
  match n, h with
  | 0, h =>
    cases h
    exact Or.inl ⟨rfl, rfl⟩
  | 1, h => cases h
  | 2, h => cases h
  | 3, h => cases h
  | 4, h =>
    cases h
    exact Or.inr ⟨rfl, rfl⟩
  | 5, h => cases h
  | 6, h => cases h
  | n + 7, h => cases h

theorem query_rate_of_answer : (answeredRun.state 7).executionsIn "owner" 0 = 2 ∧
    RateBounded (queryService 2 (by decide)) (answeredRun.state 7) := by
  refine ⟨by decide +kernel, query_rate_of_run answeredRun rfl (fun n call between hstep _ => ?_)
    (fun n call between hstep _ _ => ?_) 7⟩
  · obtain ⟨rfl, rfl⟩ | ⟨rfl, rfl⟩ := answeredRun_analyze hstep
    · exact fun row hrow => by cases hrow
    · exact fun row hrow => by cases hrow
  · obtain ⟨rfl, rfl⟩ | ⟨rfl, rfl⟩ := answeredRun_analyze hstep
    · exact fun x hx => by cases hx
    · decide +kernel

/-- A query that fails after a second and is retried a second later. -/
def retriedRun : QueryRun (queryService 1 (by decide)) :=
  queryRun _ [(1, .analyze (ownerQuery "00000000-0000-7000-8000-000000000001") 0), (0, .write),
    (0, .prepared), (1, .raise .lookupError),
    (1, .analyze (ownerQuery "00000000-0000-7000-8000-000000000001") 0), (0, .write),
    (0, .prepared)]

theorem query_rate_of_retry :
    ¬∀ n, RateBounded (queryService 1 (by decide)) (retriedRun.state n) := by
  intro h
  have hexecutions : (retriedRun.state 7).executionsIn "owner" 0 = 2 := by decide +kernel
  have hbounded := h 7 "owner" 0
  rw [hexecutions] at hbounded
  exact absurd hbounded (by decide)

/-- A query that waits two seconds for the writer, and another one 58 seconds after its answer. -/
def waitingRun : QueryRun (queryService 1 (by decide)) :=
  queryRun _ [(1, .analyze (ownerQuery "00000000-0000-7000-8000-000000000001") 0), (2, .write),
    (0, .prepared), (1, .complete (.obj [])),
    (58, .analyze (ownerQuery "00000000-0000-7000-8000-000000000002") 0), (0, .write),
    (0, .prepared)]

/-- The wait for the writer alone exceeds the limit. -/
theorem query_rate_of_wait :
    ¬∀ n, RateBounded (queryService 1 (by decide)) (waitingRun.state n) := by
  intro h
  have hexecutions : (waitingRun.state 7).executionsIn "owner" (3 * microsPerSecond) = 2 := by
    decide +kernel
  have hbounded := h 7 "owner" (3 * microsPerSecond)
  rw [hexecutions] at hbounded
  exact absurd hbounded (by decide)

end MarketMonitor
