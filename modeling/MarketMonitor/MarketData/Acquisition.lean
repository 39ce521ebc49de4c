import MarketMonitor.MarketData.PollHistory

/-!
# What a poll accepts

The accepted batches of a poll are a function of the memory it starts with and of the answers
of the gateway : no instrument is asked for twice, so what is remembered or quarantined on the
way makes no difference (`run_acquireBatches`).
-/

namespace MarketMonitor

open Transaction

/-! ## The accepted batches -/

/-- What the provider remembers of the instruments. -/
abbrev QuoteMemory := TdxIdentity → Option TdxQuote

/-- The accepted quotes of an answered request. -/
def acceptedQuotes (memory : QuoteMemory) (observedAt : Instant) (rawQuotes : List TdxRawQuote)
    (instruments : List TdxInstrument) : List TdxQuote :=
  instruments.filterMap fun instrument =>
    ((rawQuotes.filter fun q => q.identity = instrument.identity).getLast?).bind fun raw =>
      acceptedQuote (normalizeQuote raw instrument observedAt (memory instrument.identity))

/-- Some quotes as a batch, when there are any. -/
def batchOfQuotes (quotes : List TdxQuote) : List (List TdxQuote) :=
  if quotes ≠ [] then [quotes] else []

/-- The accepted batches of a request, which is halved when it fails. -/
def acceptedBatches (memory : QuoteMemory) (gateway : TdxGateway) (observedAt : Instant) :
    ℕ → List TdxInstrument → Except Exn (List (List TdxQuote))
  | 0, _ => .ok []
  | fuel + 1, instruments =>
    match requestQuotes gateway instruments with
    | .ok rawQuotes => .ok (batchOfQuotes (acceptedQuotes memory observedAt rawQuotes instruments))
    | .error e =>
      if e.cls = .tdxTransportError ∨ ¬e.cls.isRequestFailure then .error e
      else
        match instruments with
        | [_] => .ok []
        | instruments => do
          let midpoint := instruments.length / 2
          let left ← acceptedBatches memory gateway observedAt fuel (instruments.take midpoint)
          let right ← acceptedBatches memory gateway observedAt fuel (instruments.drop midpoint)
          return left ++ right

/-- The accepted batches of some requests. -/
def acceptedOf (memory : QuoteMemory) (gateway : TdxGateway) (observedAt : Instant) :
    List (List TdxInstrument) → Except Exn (List (List TdxQuote))
  | [] => .ok []
  | batch :: batches => do
    let first ← acceptedBatches memory gateway observedAt batch.length batch
    let rest ← acceptedOf memory gateway observedAt batches
    return first ++ rest

variable {memory memory' : QuoteMemory} {gateway : TdxGateway} {now : Instant}
  {instruments : List TdxInstrument} {rawQuotes : List TdxRawQuote}

theorem ne_nil_of_mem_batchOfQuotes {quotes batch : List TdxQuote}
    (h : batch ∈ batchOfQuotes quotes) : batch ≠ [] := by
  unfold batchOfQuotes at h
  split at h
  · rename_i hne
    exact List.mem_singleton.mp h ▸ hne
  · cases h

theorem flatten_batchOfQuotes (quotes : List TdxQuote) :
    (batchOfQuotes quotes).flatten = quotes := by
  unfold batchOfQuotes
  split
  · exact List.flatten_singleton
  · rename_i h
    exact (not_not.mp h).symm

/-! ## Their instruments -/

theorem acceptedQuotes_sublist :
    ((acceptedQuotes memory now rawQuotes instruments).map TdxQuote.instrument).Sublist
      instruments := by
  refine map_filterMap_sublist (fun instrument q hq => ?_) _
  obtain ⟨raw, -, hq⟩ := Option.bind_eq_some_iff.mp hq
  exact instrument_of_acceptedQuote hq

/-- Batches that are not empty, of instruments that were asked for, in their order. -/
structure BatchesOf (instruments : List TdxInstrument) (batches : List (List TdxQuote)) :
    Prop where
  ne_nil : ∀ batch ∈ batches, batch ≠ []
  sublist : (batches.flatten.map TdxQuote.instrument).Sublist instruments

theorem batchesOf_nil (instruments : List TdxInstrument) : BatchesOf instruments [] :=
  ⟨fun _ h => absurd h List.not_mem_nil, List.nil_sublist _⟩

theorem BatchesOf.append {instruments' : List TdxInstrument} {left right : List (List TdxQuote)}
    (h : BatchesOf instruments left) (h' : BatchesOf instruments' right) :
    BatchesOf (instruments ++ instruments') (left ++ right) where
  ne_nil batch hbatch := by
    rcases List.mem_append.mp hbatch with hbatch | hbatch
    · exact h.ne_nil batch hbatch
    · exact h'.ne_nil batch hbatch
  sublist := by
    rw [List.flatten_append, List.map_append]
    exact h.sublist.append h'.sublist

/-- The accepted batches of a call are some of its instruments, in their order. -/
theorem acceptedBatches_spec {fuel : ℕ} {batches : List (List TdxQuote)}
    (h : acceptedBatches memory gateway now fuel instruments = .ok batches) :
    BatchesOf instruments batches := by
  induction fuel generalizing instruments batches with
  | zero =>
    cases h
    exact batchesOf_nil _
  | succ fuel ih =>
    unfold acceptedBatches at h
    split at h
    · cases h
      exact ⟨fun _ => ne_nil_of_mem_batchOfQuotes,
        (flatten_batchOfQuotes _).symm ▸ acceptedQuotes_sublist⟩
    · split at h
      · cases h
      · split at h
        · cases h
          exact batchesOf_nil _
        · rename_i instruments _
          simp only [except_bind_eq_ok] at h
          obtain ⟨left, hleft, right, hright, h⟩ := h
          cases h
          have hboth := (ih hleft).append (ih hright)
          rwa [List.take_append_drop] at hboth

/-- So are those of several calls. -/
theorem acceptedOf_spec {requests : List (List TdxInstrument)} {batches : List (List TdxQuote)}
    (h : acceptedOf memory gateway now requests = .ok batches) :
    BatchesOf requests.flatten batches := by
  induction requests generalizing batches with
  | nil =>
    cases h
    exact batchesOf_nil _
  | cons request requests ih =>
    simp only [acceptedOf, except_bind_eq_ok] at h
    obtain ⟨first, hfirst, rest, hrest, h⟩ := h
    cases h
    exact (acceptedBatches_spec hfirst).append (ih hrest)

/-- The requests of a poll are its instruments, in their order. -/
theorem flatten_batchesOf_sublist {α : Type} (items : List α) (size : ℕ) :
    (batchesOf items size).flatten.Sublist items := by
  have htake : ∀ n, ((List.range n).map fun i => (items.drop (i * size)).take size).flatten =
      items.take (n * size) := by
    intro n
    induction n with
    | zero => simp
    | succ n ih =>
      rw [List.range_succ, List.map_append, List.flatten_append, ih, Nat.succ_mul, List.take_add]
      simp
  rw [batchesOf, htake]
  exact List.take_sublist _ _

/-! ## The memory -/

/-- The accepted quotes depend on what is remembered of the instruments asked for. -/
theorem acceptedQuotes_congr (h : ∀ i ∈ instruments, memory' i.identity = memory i.identity) :
    acceptedQuotes memory' now rawQuotes instruments =
      acceptedQuotes memory now rawQuotes instruments := by
  unfold acceptedQuotes
  refine List.filterMap_congr fun i hi => ?_
  rw [h i hi]

/-- What is accepted depends on the remembered quotes of the instruments. -/
theorem acceptedBatches_congr {fuel : ℕ}
    (h : ∀ i ∈ instruments, memory' i.identity = memory i.identity) :
    acceptedBatches memory' gateway now fuel instruments =
      acceptedBatches memory gateway now fuel instruments := by
  induction fuel generalizing instruments with
  | zero => rfl
  | succ fuel ih =>
    unfold acceptedBatches
    split
    · rw [acceptedQuotes_congr h]
    · split
      · rfl
      · split
        · rfl
        · rename_i instruments _
          dsimp only
          rw [ih fun i hi => h i (List.mem_of_mem_take hi),
            ih fun i hi => h i (List.mem_of_mem_drop hi)]

theorem acceptedOf_congr {requests : List (List TdxInstrument)}
    (h : ∀ i ∈ requests.flatten, memory' i.identity = memory i.identity) :
    acceptedOf memory' gateway now requests = acceptedOf memory gateway now requests := by
  induction requests with
  | nil => rfl
  | cons request requests ih =>
    rw [List.flatten_cons] at h
    rw [acceptedOf, acceptedOf,
      acceptedBatches_congr fun i hi => h i (List.mem_append_left _ hi),
      ih fun i hi => h i (List.mem_append_right _ hi)]

/-! ## The acquisition -/

/-- What the acquisition of some instruments leaves : their quarantine and what is remembered
of them may be new. -/
structure Acquired (instruments : List TdxInstrument) (s s' : ProviderState) : Prop where
  tables : ∃ rows, s'.tables = { s.tables with tdxSymbolQuarantine := rows }
  memory : ∀ i ∉ instruments.map TdxInstrument.identity, s'.previousQuotes i = s.previousQuotes i

variable {s s' s'' : ProviderState} {epochUid : Uid} {instruments' : List TdxInstrument}

theorem Acquired.append (h : Acquired instruments s s') (h' : Acquired instruments' s' s'') :
    Acquired (instruments ++ instruments') s s'' where
  tables := by
    obtain ⟨rows, hrows⟩ := h.tables
    obtain ⟨rows', hrows'⟩ := h'.tables
    exact ⟨rows', by rw [hrows', hrows]⟩
  memory i hi := by
    rw [List.map_append, List.mem_append, not_or] at hi
    exact (h'.memory i hi.2).trans (h.memory i hi.1)

theorem Acquired.left (h : Acquired instruments s s') (instruments' : List TdxInstrument) :
    Acquired (instruments ++ instruments') s s' where
  tables := h.tables
  memory i hi := h.memory i fun hmem =>
    hi (List.map_append ▸ List.mem_append_left _ hmem)

theorem Acquired.epoch (h : Acquired instruments s s')
    (hepoch : (s.tables.epoch? epochUid).isSome) : (s'.tables.epoch? epochUid).isSome := by
  obtain ⟨rows, hrows⟩ := h.tables
  rw [hrows]
  exact hepoch

theorem Acquired.sameStore (h : Acquired instruments s s') : SameStore s.tables s'.tables := by
  obtain ⟨rows, hrows⟩ := h.tables
  rw [hrows]
  exact ⟨⟨rfl, rfl, rfl, rfl, rfl, rfl⟩, rfl, rfl⟩

/-- What is remembered of other instruments is as it was. -/
theorem Acquired.memory_eq (h : Acquired instruments s s')
    (hnodup : ((instruments ++ instruments').map TdxInstrument.identity).Nodup) :
    ∀ i ∈ instruments', s'.previousQuotes i.identity = s.previousQuotes i.identity := by
  intro i hi
  rw [List.map_append, List.nodup_append] at hnodup
  exact h.memory _ fun hmem => hnodup.2.2 _ hmem _ (List.mem_map_of_mem hi) rfl

theorem run_recordQuarantine {t : MarketTables} (hepoch : (t.epoch? epochUid).isSome)
    (identity : TdxIdentity) (reason : String) (now : Instant) :
    ∃ rows, (recordQuarantine epochUid identity reason now).run t =
      .ok () { t with tdxSymbolQuarantine := rows } := by
  rw [recordQuarantine, run_bind_of_ok (run_get t)]
  split
  · exact ⟨_, rfl⟩
  · rw [run_bind_of_ok ((run_require_eq_ok (u := ())).mpr ⟨hepoch, rfl⟩)]
    exact ⟨_, rfl⟩

theorem run_quarantine (hepoch : (s.tables.epoch? epochUid).isSome) (instrument : TdxInstrument)
    (reason : String) (now : Instant) :
    ∃ s', (onTables (recordQuarantine epochUid instrument.identity reason now)).run s = .ok () s' ∧
      Acquired [instrument] s s' ∧ s'.previousQuotes = s.previousQuotes := by
  obtain ⟨rows, hrun⟩ := run_recordQuarantine hepoch instrument.identity reason now
  refine ⟨{ s with tables := { s.tables with tdxSymbolQuarantine := rows } }, ?_,
    ⟨⟨rows, rfl⟩, fun _ _ => rfl⟩, rfl⟩
  have happly : ∀ command : MarketCommand PUnit, (onTables command).run s = onTables command s :=
    fun _ => rfl
  rw [happly, onTables, hrun]

/-- An examined record is accepted, or its instrument quarantined. -/
theorem run_examine (hepoch : (s.tables.epoch? epochUid).isSome) (now : Instant)
    (instrument : TdxInstrument) (raw : TdxRawQuote) :
    ∃ s', (examine epochUid now instrument raw).run s = .ok (acceptedQuote (normalizeQuote raw
        instrument now (s.previousQuotes instrument.identity))) s' ∧
      Acquired [instrument] s s' := by
  have hmemory : ∀ accepted, ∀ i ∉ [instrument].map TdxInstrument.identity,
      remember instrument.identity accepted s.previousQuotes i = s.previousQuotes i := by
    intro accepted i hi
    have hne : i ≠ instrument.identity := fun heq => hi (List.mem_singleton.mpr heq)
    exact if_neg hne
  rw [examine, run_bind_of_ok (run_get s)]
  dsimp only
  rw [run_bind_of_ok ((run_set_eq_ok (u := ⟨⟩)).mpr rfl)]
  split
  · obtain ⟨s', hrun, hacquired, hprevious⟩ := run_quarantine (s := { s with
      previousQuotes := remember instrument.identity (acceptedQuote (normalizeQuote raw instrument
        now (s.previousQuotes instrument.identity))) s.previousQuotes
      examined := s.examined ++ [_] }) hepoch instrument _ now
    refine ⟨s', run_bind_of_ok hrun, hacquired.tables, fun i hi => ?_⟩
    rw [hprevious]
    exact hmemory _ i hi
  · exact ⟨_, rfl, ⟨_, rfl⟩, hmemory _⟩

/-- The quotes of an answered request are examined. -/
theorem run_examineAll (now : Instant) (hepoch : (s.tables.epoch? epochUid).isSome)
    (hcovered : ∀ i ∈ instruments, i.identity ∈ rawQuotes.map TdxRawQuote.identity)
    (hnodup : (instruments.map TdxInstrument.identity).Nodup) :
    ∃ outcomes s', (examineAll epochUid now rawQuotes instruments).run s = .ok outcomes s' ∧
      outcomes.filterMap id = acceptedQuotes s.previousQuotes now rawQuotes instruments ∧
      Acquired instruments s s' := by
  induction instruments generalizing s with
  | nil => exact ⟨[], s, rfl, rfl, ⟨_, rfl⟩, fun _ _ => rfl⟩
  | cons instrument instruments ih =>
    unfold examineAll
    cases hlast : (rawQuotes.filter fun q => q.identity = instrument.identity).getLast? with
    | none =>
      obtain ⟨raw, hraw, heq⟩ := List.mem_map.mp (hcovered instrument List.mem_cons_self)
      have hmem : raw ∈ rawQuotes.filter fun q => q.identity = instrument.identity :=
        List.mem_filter.mpr ⟨hraw, decide_eq_true heq⟩
      rw [List.getLast?_eq_none_iff.mp hlast] at hmem
      exact absurd hmem List.not_mem_nil
    | some raw =>
      obtain ⟨s', hrun, hacquired⟩ := run_examine hepoch now instrument raw
      obtain ⟨outcomes, s'', hrun', houtcomes, hacquired'⟩ := ih (hacquired.epoch hepoch)
        (fun i hi => hcovered i (List.mem_cons_of_mem _ hi)) hnodup.of_cons
      refine ⟨_, s'', (run_bind_of_ok hrun).trans ((run_bind_of_ok hrun').trans rfl), ?_,
        hacquired.append hacquired'⟩
      rw [acceptedQuotes_congr (hacquired.memory_eq hnodup)] at houtcomes
      rw [List.filterMap_cons, houtcomes, acceptedQuotes, acceptedQuotes, List.filterMap_cons,
        hlast]
      rfl

/-- The acquisition accepts some batches, or raises an error. -/
structure Acquires (instruments : List TdxInstrument) (s : ProviderState)
    (expected : Except Exn (List (List TdxQuote)))
    (result : EStateM.Result Exn ProviderState (List (List TdxQuote) × ℕ)) : Prop where
  answer : (outcome result).map Prod.fst = expected
  acquired : Acquired instruments s (stateAfter result)

/-- Two acquisitions, one after the other. -/
theorem Acquires.bind {expected expected' : Except Exn (List (List TdxQuote))}
    {left right : ProviderCommand (List (List TdxQuote) × ℕ)}
    (h : Acquires instruments s expected (left.run s))
    (h' : Acquired instruments s (stateAfter (left.run s)) →
      Acquires instruments' (stateAfter (left.run s)) expected'
        (right.run (stateAfter (left.run s)))) :
    Acquires (instruments ++ instruments') s
      (do
        let left ← expected
        let right ← expected'
        return left ++ right)
      ((do
        let left ← left
        let right ← right
        return (left.1 ++ right.1, left.2 + right.2) :
          ProviderCommand (List (List TdxQuote) × ℕ)).run s) := by
  obtain ⟨hanswer, hacquired⟩ := h
  obtain ⟨hanswer', hacquired'⟩ := h' hacquired
  cases hleft : left.run s with
  | error e s' =>
    rw [hleft] at hanswer hacquired
    rw [run_bind_of_error hleft, ← hanswer]
    exact ⟨rfl, hacquired.left _⟩
  | ok accepted s' =>
    rw [hleft, stateAfter] at hacquired hanswer' hacquired'
    rw [hleft] at hanswer
    rw [run_bind_of_ok hleft, ← hanswer]
    cases hright : right.run s' with
    | error e s'' =>
      rw [hright] at hanswer' hacquired'
      rw [run_bind_of_error hright, ← hanswer']
      exact ⟨rfl, hacquired.append hacquired'⟩
    | ok accepted' s'' =>
      rw [hright] at hanswer' hacquired'
      rw [run_bind_of_ok hright, ← hanswer']
      exact ⟨rfl, hacquired.append hacquired'⟩

/-- The acquisition of a batch returns what it accepts. -/
theorem run_acquireBatch (hepoch : (s.tables.epoch? epochUid).isSome) (fuel : ℕ)
    (hnodup : (instruments.map TdxInstrument.identity).Nodup) :
    Acquires instruments s (acceptedBatches s.previousQuotes gateway now fuel instruments)
      ((acquireBatch epochUid gateway now fuel instruments).run s) := by
  induction fuel generalizing instruments s with
  | zero => exact ⟨rfl, ⟨_, rfl⟩, fun _ _ => rfl⟩
  | succ fuel ih =>
    unfold acquireBatch acceptedBatches
    cases hrequest : requestQuotes gateway instruments with
    | ok rawQuotes =>
      obtain ⟨outcomes, s', hrun, houtcomes, hacquired⟩ := run_examineAll now hepoch
        (requestQuotes_covers hrequest) hnodup
      dsimp only
      rw [run_bind_of_ok hrun, ← houtcomes]
      exact ⟨rfl, hacquired⟩
    | error e =>
      -- A request that is halved.
      have hboth : ∀ midpoint, Acquires instruments s
          (do
            let left ← acceptedBatches s.previousQuotes gateway now fuel (instruments.take midpoint)
            let right ← acceptedBatches s.previousQuotes gateway now fuel
              (instruments.drop midpoint)
            return left ++ right)
          ((do
            let left ← acquireBatch epochUid gateway now fuel (instruments.take midpoint)
            let right ← acquireBatch epochUid gateway now fuel (instruments.drop midpoint)
            return (left.1 ++ right.1, left.2 + right.2) :
              ProviderCommand (List (List TdxQuote) × ℕ)).run s) := by
        intro midpoint
        rw [← List.take_append_drop midpoint instruments] at hnodup
        have hparts := List.map_append ▸ hnodup
        have hboth := (ih hepoch (List.nodup_append.mp hparts).1).bind fun hacquired => by
          have hright := ih (hacquired.epoch hepoch) (List.nodup_append.mp hparts).2.1
          rwa [acceptedBatches_congr (hacquired.memory_eq hnodup)] at hright
        rwa [List.take_append_drop] at hboth
      dsimp only
      split
      · exact ⟨rfl, ⟨_, rfl⟩, fun _ _ => rfl⟩
      · rcases instruments with _ | ⟨instrument, _ | ⟨_, _⟩⟩
        · exact hboth _
        · obtain ⟨s', hrun, hacquired, -⟩ := run_quarantine hepoch instrument "INVALID_RESPONSE" now
          dsimp only
          rw [run_bind_of_ok hrun]
          exact ⟨rfl, hacquired⟩
        · exact hboth _

/-- A poll acquires what its accepted batches say. -/
theorem run_acquireBatches (gateway : TdxGateway) (now : Instant)
    (hepoch : (s.tables.epoch? epochUid).isSome)
    (requests : List (List TdxInstrument))
    (hnodup : (requests.flatten.map TdxInstrument.identity).Nodup) :
    Acquires requests.flatten s (acceptedOf s.previousQuotes gateway now requests)
      ((acquireBatches epochUid gateway now requests).run s) := by
  induction requests generalizing s with
  | nil => exact ⟨rfl, ⟨_, rfl⟩, fun _ _ => rfl⟩
  | cons request requests ih =>
    rw [List.flatten_cons] at hnodup
    have hparts := List.map_append ▸ hnodup
    exact (run_acquireBatch hepoch _ (List.nodup_append.mp hparts).1).bind fun hacquired => by
      have hrest := ih (hacquired.epoch hepoch) (List.nodup_append.mp hparts).2.1
      rwa [acceptedOf_congr (hacquired.memory_eq hnodup)] at hrest

end MarketMonitor
