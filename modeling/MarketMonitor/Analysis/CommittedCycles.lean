import MarketMonitor.Analysis.CycleTurns

/-!
# Committed cycles

When a run that begins the cycle is the last to use it, and no run stops or raises between its
commit and its `COMMITTED` save (`Orderly`), it is always one run's turn (`Turn`), every write is
careful, and the committed cycle stays committed (`committed_cycle_stays`). Two runs that both
begin before one commits are enough to lose it (`committed_cycle_is_reopened`).
-/

namespace MarketMonitor

open Program

/-! ## Schedules -/

/-- The call a run makes at an event, with its response. -/
def CycleSystem.Calls (s : CycleSystem) (e : CycleEvent) (i : ℕ) (op : CycleCall)
    (response : CycleResponse) : Prop :=
  e = .call i response ∧ ∃ next, s.runs[i]? = some (.call op next)

/-- A run begins the cycle at an event. -/
def CycleSystem.Begins (s : CycleSystem) (e : CycleEvent) (i : ℕ) : Prop :=
  ∃ cycleKey subjectUid observedAt response,
    s.Calls e i (.journalBegin cycleKey subjectUid observedAt) response ∧ response.GoesThrough

/-- A run makes no call from a step on. -/
def SilentFrom (run : CycleRuns) (i n : ℕ) : Prop :=
  ∀ k, n ≤ k → ∀ op response, ¬(run.state k).Calls (run.event k) i op response

/-- The runs take the cycle one at a time : from when a run begins it, those that began it
before make no call, and none of them stopped between its commit and its `COMMITTED` save. And
none raises there. -/
structure Orderly (run : CycleRuns) : Prop where
  silent : ∀ m n i j, m < n → i ≠ j → (run.state m).Begins (run.event m) i →
    (run.state n).Begins (run.event n) j → SilentFrom run i n
  closed : ∀ m n i j, m < n → i ≠ j → (run.state m).Begins (run.event m) i →
    (run.state n).Begins (run.event n) j → ∀ op next,
      (run.state n).runs[i]? = some (.call op next) → ¬op.Closing
  calm : ∀ n i op response, (run.state n).Calls (run.event n) i op response → response.Calm op

/-- Runs of one cycle, whose snapshots have no commit when they are sealed. -/
structure RunsOfCycle (run : CycleRuns) (cycleKey : String) (subjectUid : Uid) : Prop where
  cycle : ∀ n c closed, run.event n = .start c closed →
    c.cycleKey = cycleKey ∧ c.subjectUid = subjectUid
  sealsNew : ∀ n i op response, (run.state n).Calls (run.event n) i op response →
    response.SealsNew (run.state n).db op

variable {cycleKey : String} {subjectUid : Uid} {db : CycleDatabase} {response : CycleResponse}
  {op : CycleCall}

/-! ## Whose turn it is -/

/-- The run that has begun the cycle last shares the row with no one : the other runs have not
begun it, or are silent. -/
structure Turn (run : CycleRuns) (cycleKey : String) (subjectUid : Uid) (n : ℕ)
    (holder : Option ℕ) : Prop where
  settled : holder = none → (run.state n).db.Settled cycleKey subjectUid
  begun : ∀ i ∈ holder, ∃ m < n, (run.state m).Begins (run.event m) i
  holds : ∀ i ∈ holder, ∃ p, (run.state n).runs[i]? = some p ∧
    KeepsTurn cycleKey subjectUid p (some (run.state n).db)
  others : ∀ i p, (run.state n).runs[i]? = some p → i ∉ holder →
    KeepsTurn cycleKey subjectUid p none ∨ SilentFrom run i n

variable {run : CycleRuns} {n : ℕ} {holder : Option ℕ}

/-- A run that is not between its commit and its `COMMITTED` save has left the row settled. -/
theorem settled_of_keepsTurn {p : CycleProgram OfficialCycleResult}
    (h : KeepsTurn cycleKey subjectUid p (some db))
    (hopen : ∀ op next, p = .call op next → ¬op.Closing) : db.Settled cycleKey subjectUid := by
  cases p with
  | pure a => exact h db rfl
  | throw e => exact h db rfl
  | call op next => exact h.1.2.resolve_left (hopen op next rfl)

theorem next_of_call {s : CycleSystem} {i : ℕ}
    {next : Except CycleError op.Answer → CycleProgram OfficialCycleResult}
    (hp : s.runs[i]? = some (.call op next)) (response : CycleResponse) :
    s.next (.call i response) = ⟨(s.db.answer response op).1,
      s.runs.set i (next (s.db.answer response op).2)⟩ := by
  unfold CycleSystem.next CycleSystem.callOf
  dsimp only
  rw [hp]

theorem getElem?_set_cases {α : Type} {l : List α} {i j : ℕ} {a b : α}
    (h : (l.set i a)[j]? = some b) : j = i ∧ b = a ∨ j ≠ i ∧ l[j]? = some b := by
  by_cases hij : i = j
  · subst hij
    rw [List.getElem?_set_self'] at h
    obtain ⟨x, -, hx⟩ := Option.map_eq_some_iff.mp h
    exact Or.inl ⟨rfl, hx.symm⟩
  · rw [List.getElem?_set_ne hij] at h
    exact Or.inr ⟨Ne.symm hij, h⟩

theorem SilentFrom.succ {i : ℕ} (h : SilentFrom run i n) : SilentFrom run i (n + 1) :=
  fun k hk => h k (by omega)

theorem begun_succ {holder : Option ℕ}
    (h : ∀ i ∈ holder, ∃ m < n, (run.state m).Begins (run.event m) i) :
    ∀ i ∈ holder, ∃ m < n + 1, (run.state m).Begins (run.event m) i := fun i hi =>
  let ⟨m, hm, hbegins⟩ := h i hi
  ⟨m, by omega, hbegins⟩

/-- A run starts outside its turn. -/
theorem Turn.start (h : Turn run cycleKey subjectUid n holder) {c : CycleInput} {closed : Bool}
    (hevent : run.event n = .start c closed) (hkey : c.cycleKey = cycleKey)
    (hsubject : c.subjectUid = subjectUid) : Turn run cycleKey subjectUid (n + 1) holder := by
  have hnext : run.state (n + 1) =
      { run.state n with runs := (run.state n).runs ++ [c.run closed] } := by
    rw [run.steps n, hevent]
    rfl
  refine ⟨fun hnone => hnext ▸ h.settled hnone, begun_succ h.begun, fun i hi => ?_,
    fun i p hp hi => ?_⟩
  · obtain ⟨p, hp, hkeeps⟩ := h.holds i hi
    rw [hnext]
    exact ⟨p, (List.getElem?_append_left (List.getElem?_eq_some_iff.mp hp).1).trans hp, hkeeps⟩
  · rw [hnext, List.getElem?_append] at hp
    split at hp
    · exact (h.others i p hp hi).imp_right SilentFrom.succ
    · rw [List.mem_singleton.mp (List.mem_of_getElem? hp)]
      exact Or.inl (keepsTurn_run hkey hsubject closed)

/-- An event that leaves the system as it is. -/
theorem Turn.stay (h : Turn run cycleKey subjectUid n holder)
    (hsame : run.state (n + 1) = run.state n) : Turn run cycleKey subjectUid (n + 1) holder := by
  refine ⟨fun hnone => hsame ▸ h.settled hnone, begun_succ h.begun, fun i hi => ?_,
    fun i p hp hi => ?_⟩
  · rw [hsame]
    exact h.holds i hi
  · rw [hsame] at hp
    exact (h.others i p hp hi).imp_right SilentFrom.succ

section

variable {i : ℕ} {next : Except CycleError op.Answer → CycleProgram OfficialCycleResult}

theorem state_of_call (hevent : run.event n = .call i response)
    (hp : (run.state n).runs[i]? = some (.call op next)) :
    run.state (n + 1) = ⟨((run.state n).db.answer response op).1,
      (run.state n).runs.set i (next ((run.state n).db.answer response op).2)⟩ := by
  rw [run.steps n, hevent]
  exact next_of_call hp response

/-- What the call of a run does to the others. -/
theorem Turn.others_of_call (h : Turn run cycleKey subjectUid n holder)
    (hevent : run.event n = .call i response)
    (hp : (run.state n).runs[i]? = some (.call op next)) {j : ℕ}
    {p : CycleProgram OfficialCycleResult} (hj : (run.state (n + 1)).runs[j]? = some p)
    (hji : j ≠ i) (hnot : j ∉ holder) :
    KeepsTurn cycleKey subjectUid p none ∨ SilentFrom run j (n + 1) := by
  rw [state_of_call hevent hp] at hj
  obtain ⟨rfl, -⟩ | ⟨-, hj⟩ := getElem?_set_cases hj
  · exact absurd rfl hji
  · exact (h.others j p hj hnot).imp_right SilentFrom.succ

/-- A call of the run whose turn it is. -/
theorem Turn.call_own (h : Turn run cycleKey subjectUid n (some i))
    (hevent : run.event n = .call i response)
    (hp : (run.state n).runs[i]? = some (.call op next)) (hcalm : response.Calm op)
    (hseals : response.SealsNew (run.state n).db op) :
    Turn run cycleKey subjectUid (n + 1) (some i) := by
  obtain ⟨p, hp', hkeeps⟩ := h.holds i rfl
  cases hp.symm.trans hp'
  have hstate := state_of_call hevent hp
  refine ⟨fun hnone => (by cases hnone), begun_succ h.begun, fun j hj => ?_,
    fun j p hj hnot => h.others_of_call hevent hp hj (fun hji => hnot (hji ▸ rfl)) hnot⟩
  cases hj
  rw [hstate]
  exact ⟨_, List.getElem?_set_self (List.getElem?_eq_some_iff.mp hp).1,
    hkeeps.2 _ _ (.served hcalm hseals)⟩

/-- A call of a run that does not begin the cycle by it. -/
theorem Turn.call_before (h : Turn run cycleKey subjectUid n holder)
    (hevent : run.event n = .call i response)
    (hp : (run.state n).runs[i]? = some (.call op next)) (hnot : i ∉ holder)
    (hsame : ((run.state n).db.answer response op).1 = (run.state n).db)
    (hkeeps : KeepsTurn cycleKey subjectUid (next ((run.state n).db.answer response op).2) none) :
    Turn run cycleKey subjectUid (n + 1) holder := by
  have hstate := state_of_call hevent hp
  rw [hsame] at hstate
  refine ⟨fun hnone => hstate ▸ h.settled hnone, begun_succ h.begun, fun j hj => ?_,
    fun j p hj hnot' => ?_⟩
  · obtain ⟨p, hp', hkeeps'⟩ := h.holds j hj
    have hij : i ≠ j := fun hij => hnot (hij ▸ hj)
    rw [hstate]
    exact ⟨p, (List.getElem?_set_ne hij).trans hp', hkeeps'⟩
  · by_cases hji : j = i
    · subst hji
      rw [hstate] at hj
      obtain ⟨-, rfl⟩ | ⟨hne, -⟩ := getElem?_set_cases hj
      · exact Or.inl hkeeps
      · exact absurd rfl hne
    · exact h.others_of_call hevent hp hj hji hnot'

/-- The row is settled when another run begins the cycle. -/
theorem Turn.settled_of_begins (h : Turn run cycleKey subjectUid n holder)
    (horderly : Orderly run) (hbegins : (run.state n).Begins (run.event n) i)
    (hnot : i ∉ holder) : (run.state n).db.Settled cycleKey subjectUid := by
  cases holder with
  | none => exact h.settled rfl
  | some j =>
    obtain ⟨m, hm, hbegun⟩ := h.begun j rfl
    obtain ⟨p, hp, hkeeps⟩ := h.holds j rfl
    have hji : j ≠ i := fun hji => hnot (hji ▸ rfl)
    refine settled_of_keepsTurn hkeeps fun op next hcall => ?_
    subst hcall
    exact horderly.closed m n j i hm hji hbegun hbegins op next hp

end

/-- A run begins the cycle. -/
theorem Turn.call_begin (h : Turn run cycleKey subjectUid n holder) (horderly : Orderly run)
    {i : ℕ} {t : Instant} {next : Except CycleError CycleCheckpoint →
      CycleProgram OfficialCycleResult} (hevent : run.event n = .call i response)
    (hp : (run.state n).runs[i]? = some (.call (.journalBegin cycleKey subjectUid t) next))
    (hnot : i ∉ holder) (hkeeps : KeepsTurn cycleKey subjectUid
      (.call (.journalBegin cycleKey subjectUid t) next) none) (hthrough : response.GoesThrough) :
    Turn run cycleKey subjectUid (n + 1) (some i) := by
  have hbegins : (run.state n).Begins (run.event n) i :=
    ⟨cycleKey, subjectUid, t, response, ⟨hevent, next, hp⟩, hthrough⟩
  have hstate := state_of_call hevent hp
  refine ⟨fun hnone => (by cases hnone), fun j hj => ?_, fun j hj => ?_, fun j p hj hji => ?_⟩
  · cases hj
    exact ⟨n, n.lt_succ_self, hbegins⟩
  · cases hj
    rw [hstate]
    exact ⟨_, List.getElem?_set_self (List.getElem?_eq_some_iff.mp hp).1, hkeeps.2 _ _
      (.begun response id (h.settled_of_begins horderly hbegins hnot))⟩
  · have hji : j ≠ i := fun hji' => hji (hji' ▸ rfl)
    by_cases hholder : j ∈ holder
    · obtain ⟨m, hm, hbegun⟩ := h.begun j hholder
      exact Or.inr (horderly.silent m n j i hm hji hbegun hbegins).succ
    · exact h.others_of_call hevent hp hj hji hholder

/-- A call that does not go through raises, and leaves the database as it is. -/
theorem answer_of_not_goesThrough (h : ¬response.GoesThrough) (db : CycleDatabase)
    (op : CycleCall) : ∃ error, db.answer response op = (db, .error error) := by
  cases hfailure : response.failure with
  | none => exact absurd (Or.inl hfailure) h
  | some error =>
    refine ⟨error, ?_⟩
    unfold CycleDatabase.answer
    dsimp only
    rw [if_neg h, hfailure]

/-- A call of a run that has not begun the cycle. -/
theorem Turn.call_other (h : Turn run cycleKey subjectUid n holder) (horderly : Orderly run)
    {i : ℕ} {next : Except CycleError op.Answer → CycleProgram OfficialCycleResult}
    (hevent : run.event n = .call i response)
    (hp : (run.state n).runs[i]? = some (.call op next)) (hnot : i ∉ holder)
    (hkeeps : KeepsTurn cycleKey subjectUid (.call op next) none) :
    (∀ newUid, (run.state n).db.Careful cycleKey subjectUid newUid op) ∧
      ∃ holder, Turn run cycleKey subjectUid (n + 1) holder := by
  have hquiet : op.Quiet → ∃ holder, Turn run cycleKey subjectUid (n + 1) holder := fun hquiet =>
    ⟨holder, h.call_before hevent hp hnot (fst_answer_of_quiet op hquiet)
      (hkeeps.2 _ _ (.quiet hquiet _))⟩
  cases op with
  | journalBegin key subject t =>
    obtain ⟨rfl, rfl⟩ := hkeeps.1
    refine ⟨fun _ => trivial, ?_⟩
    by_cases hthrough : response.GoesThrough
    · exact ⟨some i, h.call_begin horderly hevent hp hnot hkeeps hthrough⟩
    · obtain ⟨error, hanswer⟩ := answer_of_not_goesThrough hthrough (run.state n).db
        (.journalBegin key subject t)
      refine ⟨holder, h.call_before hevent hp hnot (congrArg Prod.fst hanswer) ?_⟩
      rw [hanswer]
      exact hkeeps.2 _ _ (.refused error)
  | journalSave => exact absurd hkeeps.1 id
  | commit => exact absurd hkeeps.1 id
  | _ => exact ⟨fun _ => trivial, hquiet trivial⟩

/-- Whatever happens, it is some run's turn or none's, and the event is careful. -/
theorem Turn.next (h : Turn run cycleKey subjectUid n holder) (horderly : Orderly run)
    (hcycle : RunsOfCycle run cycleKey subjectUid) :
    (run.state n).Careful cycleKey subjectUid (run.event n) ∧
      ∃ holder, Turn run cycleKey subjectUid (n + 1) holder := by
  cases hevent : run.event n with
  | start c closed =>
    obtain ⟨hkey, hsubject⟩ := hcycle.cycle n c closed hevent
    exact ⟨trivial, holder, h.start hevent hkey hsubject⟩
  | call i response =>
    by_cases hcall : ∃ op next, (run.state n).runs[i]? = some (.call op next)
    swap
    · refine ⟨fun _ op next hp => absurd ⟨op, next, hp⟩ hcall, holder, h.stay ?_⟩
      rw [run.steps n, hevent]
      unfold CycleSystem.next CycleSystem.callOf
      dsimp only
      split
      · rename_i op next hp
        exact absurd ⟨op, next, hp⟩ hcall
      · rfl
    obtain ⟨op, next, hp⟩ := hcall
    have hcalls : (run.state n).Calls (run.event n) i op response := ⟨hevent, next, hp⟩
    suffices hsuffices : (∀ newUid, (run.state n).db.Careful cycleKey subjectUid newUid op) ∧
        ∃ holder, Turn run cycleKey subjectUid (n + 1) holder by
      refine ⟨fun _ op' next' hp' => ?_, hsuffices.2⟩
      cases hp.symm.trans hp'
      exact hsuffices.1 _
    by_cases hholder : i ∈ holder
    · cases hholder
      obtain ⟨p, hp', hkeeps⟩ := h.holds i rfl
      cases hp.symm.trans hp'
      exact ⟨hkeeps.1.1, some i, h.call_own hevent hp (horderly.calm n i op response hcalls)
        (hcycle.sealsNew n i op response hcalls)⟩
    · refine h.call_other horderly hevent hp hholder ?_
      exact (h.others i _ hp hholder).resolve_right fun hsilent =>
        hsilent n le_rfl op response hcalls

/-! ## Committed cycles -/

/-- The committed cycle stays committed when its runs take it one at a time. -/
theorem committed_cycle_stays (run : CycleRuns) (cycleKey : String) (subjectUid : Uid)
    (hstart : (run.state 0).runs = [])
    (hsettled : (run.state 0).db.Settled cycleKey subjectUid)
    (hcycle : RunsOfCycle run cycleKey subjectUid) (horderly : Orderly run) :
    CommittedCycleStays run cycleKey subjectUid := by
  have hturn : ∀ n, ∃ holder, Turn run cycleKey subjectUid n holder := by
    intro n
    induction n with
    | zero =>
      refine ⟨none, fun _ => hsettled, fun i hi => (by cases hi), fun i hi => (by cases hi),
        fun i p hp _ => ?_⟩
      rw [hstart] at hp
      cases hp
    | succ n ih =>
      obtain ⟨holder, h⟩ := ih
      exact (h.next horderly hcycle).2
  refine stays_of_careful run cycleKey subjectUid ?_ fun n => ?_
  · rintro ⟨r, snapshotUid, hr, hfailed, hcommitted⟩
    obtain ⟨commitUid, hwith⟩ | ⟨-, hown⟩ := hsettled r hr
    · exact absurd (hfailed.1.symm.trans hwith.1) (by decide)
    · exact hown snapshotUid hfailed.2 hcommitted
  · obtain ⟨holder, h⟩ := hturn n
    exact (h.next horderly hcycle).1

/-! ## Runs of a cycle at the close -/

theorem closingAnswers_ne_error (op : CycleCall) (error : CycleError) :
    closingAnswers op ≠ .error error := by
  cases op <;> exact fun h => by cases h

/-- Calls that go through, of a pipeline whose stages are ready at the close and that seals a
snapshot. -/
def closingResponse (snapshotUid newUid : Uid) : CycleResponse where
  answers
    | .sealSnapshot _ _ _ => snapshotUid
    | op => match h : closingAnswers op with
      | .ok a => a
      | .error error => absurd h (closingAnswers_ne_error op error)
  newUid := newUid
  failure := none
  durable := true

/-- The call of an event. -/
def CycleSystem.called (s : CycleSystem) : CycleEvent → Option (ℕ × CycleCall × CycleResponse)
  | .start _ _ => none
  | .call i response =>
    match s.runs[i]? with
    | some (.call op _) => some (i, op, response)
    | _ => none

theorem called_of_calls {s : CycleSystem} {e : CycleEvent} {i : ℕ}
    (h : s.Calls e i op response) : s.called e = some (i, op, response) := by
  obtain ⟨rfl, next, hp⟩ := h
  unfold CycleSystem.called
  dsimp only
  rw [hp]

/-- A snapshot that a call seals has no commit. -/
def CycleSystem.sealsNew (s : CycleSystem) (e : CycleEvent) : Bool :=
  match s.called e with
  | some (_, .sealSnapshot subjectUid cycleKey observedAt, response) =>
    decide (response.answers (.sealSnapshot subjectUid cycleKey observedAt) ∉
      s.db.commits.map Prod.fst)
  | _ => true

theorem sealsNew_of_calls {s : CycleSystem} {e : CycleEvent} {i : ℕ}
    (h : s.Calls e i op response) (hnew : s.sealsNew e = true) : response.SealsNew s.db op := by
  unfold CycleSystem.sealsNew at hnew
  rw [called_of_calls h] at hnew
  cases op with
  | sealSnapshot =>
    have hnew := of_decide_eq_true hnew
    exact hnew
  | _ => trivial

/-- The run that begins the cycle at an event. -/
def CycleSystem.beginner (s : CycleSystem) (e : CycleEvent) : Option ℕ :=
  match s.called e with
  | some (i, .journalBegin _ _ _, _) => some i
  | _ => none

theorem beginner_of_begins {s : CycleSystem} {e : CycleEvent} {i : ℕ} (h : s.Begins e i) :
    s.beginner e = some i := by
  obtain ⟨_, _, _, _, hcalls, -⟩ := h
  unfold CycleSystem.beginner
  rw [called_of_calls hcalls]

/-- The events that call a run that is not there leave the system as it is. -/
theorem state_of_idle {N j : ℕ} (hnone : (run.state N).runs[j]? = none)
    (hidle : ∀ n, N ≤ n → ∃ response, run.event n = .call j response) (hn : N ≤ n) :
    run.state n = run.state N := by
  refine run.holds_of_le (P := fun s => s = run.state N) hn rfl fun m hNm _ hm => ?_
  obtain ⟨response, hevent⟩ := hidle m hNm
  rw [run.steps m, hm, hevent]
  unfold CycleSystem.next CycleSystem.callOf
  dsimp only
  rw [hnone]

theorem called_of_idle {N j : ℕ} (hnone : (run.state N).runs[j]? = none)
    (hidle : ∀ n, N ≤ n → ∃ response, run.event n = .call j response) (hn : N ≤ n) :
    (run.state n).called (run.event n) = none := by
  obtain ⟨response, hevent⟩ := hidle n hn
  rw [state_of_idle hnone hidle hn, hevent]
  unfold CycleSystem.called
  dsimp only
  rw [hnone]

/-- Runs of the cycle at the close : two start, the first one raises at its metrics, the second
one goes on from there and commits, and a third one starts. -/
def resumedEvents (n : ℕ) : CycleEvent :=
  if n < 2 then .start (closingCycle .official (Or.inl rfl)) false
  else if n < 3 then .call 1 (closingResponse "snapshot" "cycle")
  else if n < 15 then .call 0 (closingResponse "snapshot" "cycle")
  else if n < 16 then .call 0 { closingResponse "snapshot" "cycle" with
    failure := some ⟨"RuntimeError", "metric evidence is not ready"⟩, durable := false }
  else if n < 17 then .call 0 (closingResponse "snapshot" "cycle")
  else if n < 33 then .call 1 (closingResponse "snapshot" "commit")
  else if n < 34 then .start (closingCycle .official (Or.inl rfl)) false
  else if n < 35 then .call 2 (closingResponse "snapshot" "commit")
  else .call 3 (closingResponse "snapshot" "commit")

/-- The runs over an empty database. -/
def resumedRuns : CycleRuns :=
  .ofEvents (fun e s => s.next e) ⟨⟨[], [], List.nodup_nil⟩, []⟩ resumedEvents fun _ _ => rfl

theorem resumedRuns_idle (n : ℕ) (hn : 35 ≤ n) :
    ∃ response, resumedRuns.event n = .call 3 response := by
  refine ⟨closingResponse "snapshot" "commit", ?_⟩
  change resumedEvents n = _
  unfold resumedEvents
  rw [if_neg (by omega), if_neg (by omega), if_neg (by omega), if_neg (by omega),
    if_neg (by omega), if_neg (by omega), if_neg (by omega), if_neg (by omega)]

theorem lt_of_calls_resumed {n i : ℕ}
    (h : (resumedRuns.state n).Calls (resumedRuns.event n) i op response) : n < 35 := by
  by_contra hn
  have hidle := called_of_idle (N := 35) (j := 3) rfl resumedRuns_idle (not_lt.mp hn)
  cases hidle.symm.trans (called_of_calls h)

/-- The interrupted run and the one that resumes it are runs of the cycle. -/
theorem resumedRuns_ofCycle : RunsOfCycle resumedRuns "2025-12-31:15:00" "subject" where
  cycle n c closed hevent := by
    change resumedEvents n = _ at hevent
    unfold resumedEvents at hevent
    split_ifs at hevent
    all_goals
      cases hevent
      exact ⟨rfl, rfl⟩
  sealsNew n i op response hcalls := by
    have hchecked : ∀ n < 35, (resumedRuns.state n).sealsNew (resumedRuns.event n) = true := by
      decide +kernel
    exact sealsNew_of_calls hcalls (hchecked n (lt_of_calls_resumed hcalls))

/-- The first run begins the cycle, and then the second one. -/
theorem resumedRuns_begins {n i : ℕ}
    (h : (resumedRuns.state n).Begins (resumedRuns.event n) i) :
    n = 12 ∧ i = 0 ∨ n = 25 ∧ i = 1 := by
  have hchecked : ∀ n < 35, ∀ i ∈ (resumedRuns.state n).beginner (resumedRuns.event n),
      n = 12 ∧ i = 0 ∨ n = 25 ∧ i = 1 := by
    decide +kernel
  obtain ⟨_, _, _, _, hcalls, -⟩ := id h
  exact hchecked n (lt_of_calls_resumed hcalls) i (beginner_of_begins h)

theorem calm_of_failure_eq_none (h : response.failure = none) : response.Calm op := by
  cases op with
  | commit => exact fun _ => h
  | _ => exact fun _ => h

/-- The second run begins after the first is silent. -/
theorem resumedRuns_orderly : Orderly resumedRuns where
  silent m n i j hmn hij hi hj k hnk op response hcalls := by
    have hevent : resumedEvents k = .call i response := hcalls.1
    obtain ⟨rfl, rfl⟩ : n = 25 ∧ i = 0 := by
      have := resumedRuns_begins hi
      have := resumedRuns_begins hj
      omega
    unfold resumedEvents at hevent
    split_ifs at hevent
    all_goals
      first
      | omega
      | cases hevent
  closed m n i j hmn hij hi hj op next hp := by
    obtain ⟨rfl, rfl⟩ : n = 25 ∧ i = 0 := by
      have := resumedRuns_begins hi
      have := resumedRuns_begins hj
      omega
    have hended : (resumedRuns.state 25).runs[0]? =
        some (.throw ⟨"RuntimeError", "metric evidence is not ready"⟩) := rfl
    cases hended.symm.trans hp
  calm n i op response hcalls := by
    by_cases hn : n = 15
    · subst hn
      obtain ⟨hevent, next, hp⟩ := hcalls
      cases hevent
      have hmetrics : ∃ snapshotUid permit next, (resumedRuns.state 15).runs[0]? =
          some (.call (.runMetrics snapshotUid permit) next) := ⟨_, _, _, rfl⟩
      obtain ⟨_, _, _, hmetrics⟩ := hmetrics
      cases hmetrics.symm.trans hp
      exact fun hclosing => hclosing.elim
    · have hevent : resumedEvents n = .call i response := hcalls.1
      unfold resumedEvents at hevent
      split_ifs at hevent
      all_goals
        first
        | omega
        | cases hevent
          exact calm_of_failure_eq_none rfl

/-- The cycle that a run resumes after another one failed stays committed. -/
theorem resumed_cycle_stays :
    (resumedRuns.state 33).db.RowCommitted "2025-12-31:15:00" "subject" "commit" ∧
      CommittedCycleStays resumedRuns "2025-12-31:15:00" "subject" :=
  ⟨⟨_, rfl, rfl, rfl⟩, committed_cycle_stays resumedRuns _ _ rfl (fun r hr => by cases hr)
    resumedRuns_ofCycle resumedRuns_orderly⟩

/-- Two runs of the cycle at the close : both begin, the first one commits, and then the other
one goes on. -/
def overlappingEvents (n : ℕ) : CycleEvent :=
  if n < 2 then .start (closingCycle .official (Or.inl rfl)) false
  else if n < 12 then .call 0 (closingResponse "snapshot" "cycle")
  else if n < 22 then .call 1 (closingResponse "snapshot" "cycle")
  else if n < 31 then .call 0 (closingResponse "snapshot" "commit")
  else if n < 33 then .call 1 (closingResponse "other" "commit")
  else .call 2 (closingResponse "other" "commit")

/-- The runs over an empty database. -/
def overlappingRuns : CycleRuns :=
  .ofEvents (fun e s => s.next e) ⟨⟨[], [], List.nodup_nil⟩, []⟩ overlappingEvents fun _ _ => rfl

theorem overlappingRuns_reopen :
    ¬CommittedCycleStays overlappingRuns "2025-12-31:15:00" "subject" := by
  intro h
  have hcommitted : (overlappingRuns.state 31).db.RowCommitted "2025-12-31:15:00" "subject"
      "commit" := ⟨_, rfl, rfl, rfl⟩
  have hreopened : ((overlappingRuns.state 33).db.get "2025-12-31:15:00" "subject").map
      CycleCheckpoint.status = some .running := rfl
  obtain ⟨r, hr, hstatus, -⟩ := h.keeps 31 "commit" hcommitted 33 (by omega)
  rw [hr, Option.map_some, hstatus] at hreopened
  cases hreopened

theorem overlappingRuns_idle (n : ℕ) (hn : 33 ≤ n) :
    ∃ response, overlappingRuns.event n = .call 2 response := by
  refine ⟨closingResponse "other" "commit", ?_⟩
  change overlappingEvents n = _
  unfold overlappingEvents
  rw [if_neg (by omega), if_neg (by omega), if_neg (by omega), if_neg (by omega),
    if_neg (by omega)]

/-- The two runs that overlap are runs of the cycle. -/
theorem overlappingRuns_ofCycle :
    RunsOfCycle overlappingRuns "2025-12-31:15:00" "subject" where
  cycle n c closed hevent := by
    change overlappingEvents n = _ at hevent
    unfold overlappingEvents at hevent
    split_ifs at hevent
    cases hevent
    exact ⟨rfl, rfl⟩
  sealsNew n i op response hcalls := by
    have hchecked : ∀ n < 33,
        (overlappingRuns.state n).sealsNew (overlappingRuns.event n) = true := by
      decide +kernel
    by_cases hn : n < 33
    · exact sealsNew_of_calls hcalls (hchecked n hn)
    · have hidle := called_of_idle (N := 33) (j := 2) rfl overlappingRuns_idle (not_lt.mp hn)
      cases hidle.symm.trans (called_of_calls hcalls)

/-- A run that has begun a cycle before another run commits it writes over the committed row. -/
theorem committed_cycle_is_reopened :
    ¬∀ (run : CycleRuns) (cycleKey : String) (subjectUid : Uid),
      run.state 0 = ⟨⟨[], [], List.nodup_nil⟩, []⟩ → RunsOfCycle run cycleKey subjectUid →
      CommittedCycleStays run cycleKey subjectUid :=
  fun h => overlappingRuns_reopen (h overlappingRuns _ _ rfl overlappingRuns_ofCycle)

end MarketMonitor
