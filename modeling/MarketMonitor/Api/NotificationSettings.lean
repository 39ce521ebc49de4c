import MarketMonitor.Library.Run
import MarketMonitor.Library.Transaction
import MarketMonitor.Persistence.Instants
import MarketMonitor.Persistence.Schema

/-!
# Notification settings

An update names the version it was made for, and it leaves its response under its key. Both
are checked in the transaction that writes the settings, so that an update that is applied
is one of the version that is current at that moment, and a call with a key that is there
writes nothing.

A call does one of three things (`update_cases`) : it leaves the store as it was and raises,
it returns the response of its key and leaves the store as it was, or it is applied. In a
run of calls by any clients no update is lost (`notification_settings_keep_updates`).
-/

namespace MarketMonitor

open Transaction

/-! ## The tables -/

/-- The row of `notification_setting`. -/
structure NotificationSetting where
  enabled : Bool
  endpointSource : String
  updatedAt : String
  version : ℕ
  deriving DecidableEq

inductive OperationState where
  | inProgress | completed
  deriving DecidableEq, Repr

/-- `api_idempotency`, with the response as the value that its JSON text denotes. -/
structure ApiIdempotency where
  ownerUid : String
  operation : String
  keyHash : String
  requestHash : String
  operationUid : String
  operationState : OperationState
  responseJson : Option Json.Value
  createdAt : String
  expiresAt : String

structure SettingsStore where
  ownerAccount : List String
  notificationSetting : NotificationSetting
  apiIdempotency : List ApiIdempotency
  auditRecord : List AuditRecord

def apiIdempotencyTable : Table SettingsStore ApiIdempotency where
  rows := SettingsStore.apiIdempotency
  put rows s := { s with apiIdempotency := rows }
  clash a b := (a.ownerUid = b.ownerUid ∧ a.operation = b.operation ∧ a.keyHash = b.keyHash) ∨
    a.operationUid = b.operationUid
  rows_put _ _ := rfl
  put_rows _ := rfl
  put_put _ _ _ := rfl

def settingsAuditTable : Table SettingsStore AuditRecord where
  rows := SettingsStore.auditRecord
  put rows s := { s with auditRecord := rows }
  clash a b := a.auditUid = b.auditUid
  rows_put _ _ := rfl
  put_rows _ := rfl
  put_put _ _ _ := rfl

/-! ## The service -/

def idempotencyConflict (message : String) : Exn := ⟨.idempotencyConflictError, message⟩

/-- `WriteService._stored_response(response_json)` -/
def storedIdempotentResponse (responseJson : Option Json.Value) : Except Exn Json.Value :=
  match responseJson with
  | some (.obj fields) => .ok (.obj fields)
  | _ => .error ⟨.runtimeError, "stored idempotent response is invalid"⟩

/-- The row of a key. -/
def idempotencyRow (rows : List ApiIdempotency) (ownerUid operation keyHash : String) :
    Option ApiIdempotency :=
  rows.find? fun row =>
    row.ownerUid = ownerUid ∧ row.operation = operation ∧ row.keyHash = keyHash

/-- `WriteService._idempotent(transaction, owner_uid, operation, key_hash, request_hash)` -/
def idempotent (rows : List ApiIdempotency) (ownerUid operation keyHash requestHash : String) :
    Except Exn (Option Json.Value) :=
  match idempotencyRow rows ownerUid operation keyHash with
  | none => .ok none
  | some row => do
    check (row.requestHash = requestHash)
      (idempotencyConflict "idempotency key was used for another request")
    check (row.operationState = .completed)
      (idempotencyConflict "idempotent operation is already in progress")
    let response ← storedIdempotentResponse row.responseJson
    return some response

/-- The version as a client names it. -/
def settingsEtag (version : ℕ) : String :=
  String.ofList ("\"notification-settings-v".toList ++ (Nat.repr version).toList ++ ['"'])

/-- `WriteService._settings_response(row)` -/
def settingsResponse (webhookConfigured : Bool) (row : NotificationSetting) : Json.Value :=
  .obj [
    ("enabled", .bool row.enabled),
    ("endpoint_source", .str row.endpointSource),
    ("endpoint_status", .str (if webhookConfigured then "CONFIGURED" else "NOT_CONFIGURED")),
    ("endpoint_masked", if webhookConfigured then .str "configured" else .null),
    ("endpoint_value_status", .str (if webhookConfigured then "VALUE" else "MISSING")),
    ("updated_at", .str row.updatedAt),
    ("version", .int row.version),
    ("etag", .str (settingsEtag row.version))]

/-- A call of `update_notification_settings`, with the two readings of its clock and the
identifiers it draws. -/
structure SettingsCall where
  ownerUid : String
  enabled : Bool
  ifMatch : String
  idempotencyKey : String
  now : Instant
  later : Instant
  operationUid : String
  auditUid : Uid

namespace SettingsCall

def operation : String := "UPDATE_NOTIFICATION_SETTINGS"

variable (call : SettingsCall)

def keyHash : String := canonicalHash (.str call.idempotencyKey)

/-- What a call asks for. -/
def request : Json.Value :=
  .obj [("enabled", .bool call.enabled), ("if_match", .str call.ifMatch)]

def requestHash : String := canonicalHash call.request

def expires : Instant := call.later + 24 * minutes 60

/-- The row of the settings after the update. -/
def updated (row : NotificationSetting) : NotificationSetting :=
  { row with
    enabled := call.enabled
    updatedAt := formatRfc3339 call.now
    version := row.version + 1 }

/-- The row that the update leaves under its key. -/
def idempotencyRecord (response : Json.Value) : ApiIdempotency where
  ownerUid := call.ownerUid
  operation := operation
  keyHash := call.keyHash
  requestHash := call.requestHash
  operationUid := call.operationUid
  operationState := .completed
  responseJson := some response
  createdAt := formatRfc3339 call.now
  expiresAt := formatRfc3339 call.expires

def audit (response : Json.Value) : AuditRecord where
  auditUid := call.auditUid
  action := "NOTIFICATION_SETTINGS_UPDATED"
  subjectUid := none
  analysisCommitUid := none
  detailHash := canonicalHash response
  createdAt := call.now

end SettingsCall

/-- `WriteService.update_notification_settings(owner_uid, enabled, if_match,
idempotency_key)`, the transaction of the writer. -/
def updateNotificationSettings (webhookConfigured : Bool) (call : SettingsCall) :
    EStateM Exn SettingsStore Json.Value := atomically do
  let s ← get
  let replay ← fromExcept (idempotent s.apiIdempotency call.ownerUid SettingsCall.operation
    call.keyHash call.requestHash)
  match replay with
  | some response => return response
  | none => do
    require (¬(call.enabled = true ∧ webhookConfigured = false))
      (valueError "webhook endpoint is not configured")
    let row := s.notificationSetting
    require (call.ifMatch = settingsEtag row.version)
      ⟨.versionConflictError, "notification settings version changed"⟩
    let response := settingsResponse webhookConfigured (call.updated row)
    set { s with notificationSetting := call.updated row }
    -- The owner is a foreign key, and a row expires after it was created.
    require (call.ownerUid ∈ s.ownerAccount) integrityError
    require (formatRfc3339 call.now < formatRfc3339 call.expires) integrityError
    insertInto apiIdempotencyTable integrityError (call.idempotencyRecord response)
    insertInto settingsAuditTable integrityError (call.audit response)
    return response

/-! ## What a call does -/

/-- The response of an update that is applied. -/
def SettingsCall.response (webhookConfigured : Bool) (call : SettingsCall) (s : SettingsStore) :
    Json.Value :=
  settingsResponse webhookConfigured (call.updated s.notificationSetting)

/-- The store after an update. -/
def SettingsCall.applied (webhookConfigured : Bool) (call : SettingsCall) (s : SettingsStore) :
    SettingsStore :=
  { s with
    notificationSetting := call.updated s.notificationSetting
    apiIdempotency :=
      s.apiIdempotency ++ [call.idempotencyRecord (call.response webhookConfigured s)]
    auditRecord := s.auditRecord ++ [call.audit (call.response webhookConfigured s)] }

/-- What the key of a call says before it. -/
def SettingsCall.replay (call : SettingsCall) (s : SettingsStore) :
    Except Exn (Option Json.Value) :=
  idempotent s.apiIdempotency call.ownerUid SettingsCall.operation call.keyHash call.requestHash

/-- A call meets a conflict of its key, is refused, returns the response of its key, each with
the store left as it was, or is applied to the version that it names. -/
inductive SettingsOutcome (webhookConfigured : Bool) (call : SettingsCall) (s : SettingsStore) :
    EStateM.Result Exn SettingsStore Json.Value → Prop
  | conflicted {e : Exn} (h : call.replay s = .error e) :
      SettingsOutcome webhookConfigured call s (.error e s)
  | refused {e : Exn} (h : call.replay s = .ok none) :
      SettingsOutcome webhookConfigured call s (.error e s)
  | replayed {response : Json.Value} (h : call.replay s = .ok (some response)) :
      SettingsOutcome webhookConfigured call s (.ok response s)
  | applied (h : call.replay s = .ok none)
      (hversion : call.ifMatch = settingsEtag s.notificationSetting.version) :
      SettingsOutcome webhookConfigured call s
        (.ok (call.response webhookConfigured s) (call.applied webhookConfigured s))

/-- What an update comes to. -/
theorem update_cases (webhookConfigured : Bool) (call : SettingsCall) (s : SettingsStore) :
    SettingsOutcome webhookConfigured call s
      ((updateNotificationSettings webhookConfigured call).run s) := by
  cases hreplay : call.replay s with
  | error e =>
    have hrun : (updateNotificationSettings webhookConfigured call).run s = .error e s :=
      run_atomically_of_error ((run_bind_of_ok (run_get s)).trans
        (run_bind_of_error (run_fromExcept_eq_error.mpr ⟨hreplay, rfl⟩)))
    rw [hrun]
    exact .conflicted hreplay
  | ok replay =>
    cases replay with
    | some response =>
      have hrun : (updateNotificationSettings webhookConfigured call).run s = .ok response s :=
        run_atomically_eq_ok.mpr ((run_bind_of_ok (run_get s)).trans
          (run_bind_of_ok (run_fromExcept_eq_ok.mpr ⟨hreplay, rfl⟩)))
      rw [hrun]
      exact .replayed hreplay
    | none =>
      cases hrun : (updateNotificationSettings webhookConfigured call).run s with
      | error e s' =>
        obtain rfl := run_atomically_eq_error hrun
        exact .refused hreplay
      | ok response s' =>
        have h := run_atomically_eq_ok.mp hrun
        rw [run_bind_of_ok (run_get s)] at h
        obtain ⟨_, _, hfound, h⟩ := run_bind_eq_ok.mp h
        obtain ⟨hok, rfl⟩ := run_fromExcept_eq_ok.mp hfound
        cases hok.symm.trans hreplay
        simp only [run_bind_eq_ok, run_require_eq_ok, run_set_eq_ok, run_insertInto_eq_ok,
          run_pure_eq_ok] at h
        obtain ⟨_, _, ⟨-, rfl⟩, _, _, ⟨hversion, rfl⟩, _, _, rfl, _, _, ⟨-, rfl⟩, _, _, ⟨-, rfl⟩, _,
          _, ⟨-, rfl⟩, _, _, ⟨-, rfl⟩, rfl, rfl⟩ := h
        exact .applied hreplay hversion

/-! ## Keys -/

/-- A key that is new has no row. -/
theorem replay_eq_none {call : SettingsCall} {s : SettingsStore} (h : call.replay s = .ok none) :
    idempotencyRow s.apiIdempotency call.ownerUid SettingsCall.operation call.keyHash = none := by
  unfold SettingsCall.replay idempotent at h
  split at h
  · assumption
  · obtain ⟨_, -, h⟩ := except_bind_eq_ok.mp h
    obtain ⟨_, -, h⟩ := except_bind_eq_ok.mp h
    obtain ⟨_, -, h⟩ := except_bind_eq_ok.mp h
    cases h

/-- The row of an update is found under its key. -/
theorem idempotencyRow_applied {webhookConfigured : Bool} {call : SettingsCall}
    {s : SettingsStore} (h : call.replay s = .ok none) :
    idempotencyRow (call.applied webhookConfigured s).apiIdempotency call.ownerUid
      SettingsCall.operation call.keyHash =
        some (call.idempotencyRecord (call.response webhookConfigured s)) := by
  rw [SettingsCall.applied, idempotencyRow, List.find?_append, ← idempotencyRow, replay_eq_none h,
    Option.none_or, List.find?_singleton]
  exact if_pos (decide_eq_true ⟨rfl, rfl, rfl⟩)

/-- A row stays under its key. -/
theorem idempotencyRow_append {rows rows' : List ApiIdempotency}
    {ownerUid operation keyHash : String} {row : ApiIdempotency}
    (h : idempotencyRow rows ownerUid operation keyHash = some row) :
    idempotencyRow (rows ++ rows') ownerUid operation keyHash = some row := by
  rw [idempotencyRow, List.find?_append, ← idempotencyRow, h, Option.some_or]

/-- The next call with the key of an update is answered with its response, when it is for the
same request, and is a conflict otherwise. -/
theorem replay_of_row {call later : SettingsCall} {fields : List (String × Json.Value)}
    {s : SettingsStore} (howner : later.ownerUid = call.ownerUid)
    (hkey : later.idempotencyKey = call.idempotencyKey)
    (hrow : idempotencyRow s.apiIdempotency call.ownerUid SettingsCall.operation call.keyHash =
      some (call.idempotencyRecord (.obj fields))) :
    later.replay s = if call.requestHash = later.requestHash then .ok (some (.obj fields))
      else .error (idempotencyConflict "idempotency key was used for another request") := by
  have hhash : later.keyHash = call.keyHash := by
    rw [SettingsCall.keyHash, hkey, SettingsCall.keyHash]
  rw [SettingsCall.replay, idempotent, howner, hhash, hrow]
  dsimp only [SettingsCall.idempotencyRecord, check, storedIdempotentResponse]
  split <;> rfl

/-- A client names one version only. -/
theorem settingsEtag_inj {m n : ℕ} (h : settingsEtag m = settingsEtag n) : m = n := by
  have h := String.ofList_injective h
  exact toDigits_inj (by
    rw [← Nat.toList_repr, ← Nat.toList_repr]
    exact List.append_cancel_left (List.append_cancel_right h))

/-! ## Runs -/

/-- Calls of any clients, each a transaction of the one writer. -/
abbrev SettingsRun (webhookConfigured : Bool) :=
  Run fun (call : SettingsCall) (s s' : SettingsStore) =>
    s' = stateAfter ((updateNotificationSettings webhookConfigured call).run s)

namespace SettingsRun

variable {webhookConfigured : Bool} (run : SettingsRun webhookConfigured)

/-- What a call returns or raises. -/
def result (n : ℕ) : Except Exn Json.Value :=
  outcome ((updateNotificationSettings webhookConfigured (run.event n)).run (run.state n))

/-- The call returns, and not for what its key says. -/
def Applied (n : ℕ) : Prop :=
  (run.event n).replay (run.state n) = .ok none ∧ ∃ response, run.result n = .ok response

/-- Two calls of one client under one key. -/
def SameKey (n m : ℕ) : Prop :=
  (run.event m).ownerUid = (run.event n).ownerUid ∧
    (run.event m).idempotencyKey = (run.event n).idempotencyKey

/-- A call that is applied names the current version, and is what the store holds after it. -/
theorem of_applied {n : ℕ} (h : run.Applied n) :
    (run.event n).ifMatch = settingsEtag (run.state n).notificationSetting.version ∧
      run.state (n + 1) = (run.event n).applied webhookConfigured (run.state n) ∧
      run.result n = .ok ((run.event n).response webhookConfigured (run.state n)) := by
  obtain ⟨hnew, response, hresponse⟩ := h
  have hstep := run.steps n
  have hcases := update_cases webhookConfigured (run.event n) (run.state n)
  unfold result at hresponse ⊢
  generalize (updateNotificationSettings webhookConfigured (run.event n)).run (run.state n) = r at *
  cases hcases with
  | conflicted hc => cases hnew.symm.trans hc
  | refused => cases hresponse
  | replayed hc => cases hnew.symm.trans hc
  | applied _ hversion => exact ⟨hversion, hstep, rfl⟩

/-- Any other call leaves the store as it was. -/
theorem of_not_applied {n : ℕ} (h : ¬run.Applied n) : run.state (n + 1) = run.state n := by
  have hstep := run.steps n
  have hcases := update_cases webhookConfigured (run.event n) (run.state n)
  unfold Applied result at h
  generalize (updateNotificationSettings webhookConfigured (run.event n)).run (run.state n) = r at *
  cases hcases with
  | conflicted => exact hstep
  | refused => exact hstep
  | replayed => exact hstep
  | applied hnew => exact absurd ⟨hnew, _, rfl⟩ h

/-- What the key of a call says is what the call returns or raises. -/
theorem result_of_replay {n : ℕ} {answer : Except Exn Json.Value}
    (h : (run.event n).replay (run.state n) = answer.map some) :
    run.result n = answer ∧ ¬run.Applied n := by
  have hcases := update_cases webhookConfigured (run.event n) (run.state n)
  unfold Applied result
  generalize (updateNotificationSettings webhookConfigured (run.event n)).run (run.state n) = r at *
  cases hcases with
  | conflicted hc =>
    rw [hc] at h ⊢
    cases answer <;> cases h
    exact ⟨rfl, fun happlied => by cases happlied.1⟩
  | replayed hc =>
    rw [hc] at h ⊢
    cases answer <;> cases h
    exact ⟨rfl, fun happlied => by cases happlied.1⟩
  | refused hc =>
    rw [hc] at h
    cases answer <;> cases h
  | applied hc =>
    rw [hc] at h
    cases answer <;> cases h

theorem version_mono {n m : ℕ} (h : n ≤ m) :
    (run.state n).notificationSetting.version ≤ (run.state m).notificationSetting.version := by
  refine run.holds_of_le (P := fun s => (run.state n).notificationSetting.version ≤
    s.notificationSetting.version) h le_rfl fun j _ _ hj => ?_
  by_cases happlied : run.Applied j
  · rw [(run.of_applied happlied).2.1]
    exact hj.trans (Nat.le_succ _)
  · rwa [run.of_not_applied happlied]

/-- The row of an update stays under its key. -/
theorem row_of_applied {n m : ℕ} (h : run.Applied n) (hnm : n < m) :
    idempotencyRow (run.state m).apiIdempotency (run.event n).ownerUid SettingsCall.operation
      (run.event n).keyHash =
        some ((run.event n).idempotencyRecord
          ((run.event n).response webhookConfigured (run.state n))) := by
  refine run.holds_of_le (P := fun s => idempotencyRow s.apiIdempotency (run.event n).ownerUid
    SettingsCall.operation (run.event n).keyHash = _) hnm ?_ fun j _ _ hj => ?_
  · rw [(run.of_applied h).2.1]
    exact idempotencyRow_applied h.1
  · by_cases happlied : run.Applied j
    · rw [(run.of_applied happlied).2.1]
      exact idempotencyRow_append hj
    · rwa [run.of_not_applied happlied]

/-- What the key of an update says to a later call. -/
theorem replay_of_applied {n m : ℕ} (h : run.Applied n) (hnm : n < m) (hkey : run.SameKey n m) :
    (run.event m).replay (run.state m) =
      if (run.event n).requestHash = (run.event m).requestHash then
        .ok (some ((run.event n).response webhookConfigured (run.state n)))
      else .error (idempotencyConflict "idempotency key was used for another request") :=
  replay_of_row hkey.1 hkey.2 (run.row_of_applied h hnm)

/-- The settings are those of the last update, or those of the start. -/
theorem setting_eq (n : ℕ) :
    (∃ m < n, run.Applied m ∧ (∀ k, m < k → k < n → ¬run.Applied k) ∧
      (run.state n).notificationSetting =
        (run.event m).updated (run.state m).notificationSetting) ∨
    ((∀ k < n, ¬run.Applied k) ∧
      (run.state n).notificationSetting = (run.state 0).notificationSetting) := by
  induction n with
  | zero => exact .inr ⟨fun k hk => absurd hk (Nat.not_lt_zero k), rfl⟩
  | succ n ih =>
    by_cases happlied : run.Applied n
    · refine .inl ⟨n, n.lt_succ_self, happlied, fun k hnk hk => absurd hk (by omega), ?_⟩
      rw [(run.of_applied happlied).2.1]
      rfl
    · rw [run.of_not_applied happlied]
      rcases ih with ⟨m, hm, hlast, hquiet, heq⟩ | ⟨hquiet, heq⟩
      · refine .inl ⟨m, Nat.lt_succ_of_lt hm, hlast, fun k hmk hk => ?_, heq⟩
        rcases Nat.lt_succ_iff_lt_or_eq.mp hk with hk | rfl
        · exact hquiet k hmk hk
        · exact happlied
      · refine .inr ⟨fun k hk => ?_, heq⟩
        rcases Nat.lt_succ_iff_lt_or_eq.mp hk with hk | rfl
        · exact hquiet k hk
        · exact happlied

end SettingsRun

/-- In every run of updates by any clients : an update that is applied is for the version
that is current, which it raises by one, so that a version is updated once; the settings are
those of the last update; the key of an update returns its response to the same request
without applying it again, and refuses another request, unless the hashes of the two
requests collide; and a call that is not applied, in particular one that raises, changes
nothing. -/
theorem notification_settings_keep_updates {webhookConfigured : Bool}
    (run : SettingsRun webhookConfigured) :
    (∀ n, run.Applied n →
      (run.event n).ifMatch = settingsEtag (run.state n).notificationSetting.version ∧
      (run.state (n + 1)).notificationSetting.version =
        (run.state n).notificationSetting.version + 1) ∧
    (∀ n m, run.Applied n → run.Applied m → (run.event n).ifMatch = (run.event m).ifMatch →
      n = m) ∧
    (∀ n, (∃ m < n, run.Applied m ∧ (∀ k, m < k → k < n → ¬run.Applied k) ∧
        (run.state n).notificationSetting =
          (run.event m).updated (run.state m).notificationSetting) ∨
      ((∀ k < n, ¬run.Applied k) ∧
        (run.state n).notificationSetting = (run.state 0).notificationSetting)) ∧
    (∀ n m, run.Applied n → n < m → run.SameKey n m →
      (run.event m).request = (run.event n).request →
      run.result m = run.result n ∧ run.state (m + 1) = run.state m) ∧
    (∀ n m, run.Applied n → n < m → run.SameKey n m →
      (run.event m).request ≠ (run.event n).request →
      run.result m =
        .error (idempotencyConflict "idempotency key was used for another request") ∨
      (run.event m).requestHash = (run.event n).requestHash) ∧
    ∀ n, (¬run.Applied n → run.state (n + 1) = run.state n) ∧
      ∀ e, run.result n = .error e → run.state (n + 1) = run.state n := by
  refine ⟨fun n h => ⟨(run.of_applied h).1, ?_⟩, fun n m hn hm hmatch => ?_, run.setting_eq,
    fun n m h hnm hkey hrequest => ?_, fun n m h hnm hkey _ => ?_,
    fun n => ⟨run.of_not_applied, fun e he => run.of_not_applied fun h => ?_⟩⟩
  · rw [(run.of_applied h).2.1]
    rfl
  · -- The later one of two would name a version that the earlier one has passed.
    have hversion := settingsEtag_inj
      ((run.of_applied hn).1.symm.trans (hmatch.trans (run.of_applied hm).1))
    have hpassed : ∀ {i j : ℕ}, run.Applied i → i < j →
        (run.state i).notificationSetting.version < (run.state j).notificationSetting.version := by
      intro i j hi hij
      refine lt_of_lt_of_le ?_ (run.version_mono hij)
      rw [(run.of_applied hi).2.1]
      exact Nat.lt_succ_self _
    rcases lt_trichotomy n m with hlt | heq | hgt
    · exact absurd hversion (hpassed hn hlt).ne
    · exact heq
    · exact absurd hversion (hpassed hm hgt).ne'
  · have hreplay := run.replay_of_applied h hnm hkey
    rw [if_pos (by rw [SettingsCall.requestHash, SettingsCall.requestHash, hrequest])] at hreplay
    obtain ⟨hresult, hquiet⟩ := @SettingsRun.result_of_replay _ run _ (.ok _) hreplay
    exact ⟨hresult.trans (run.of_applied h).2.2.symm, run.of_not_applied hquiet⟩
  · have hreplay := run.replay_of_applied h hnm hkey
    by_cases hhash : (run.event n).requestHash = (run.event m).requestHash
    · exact .inr hhash.symm
    · rw [if_neg hhash] at hreplay
      exact .inl (@SettingsRun.result_of_replay _ run _ (.error _) hreplay).1
  · rw [(run.of_applied h).2.2] at he
    cases he

end MarketMonitor
