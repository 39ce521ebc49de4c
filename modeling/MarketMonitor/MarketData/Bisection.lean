import Mathlib.Data.List.Perm.Basic
import MarketMonitor.MarketData.Acquisition

/-!
# The bisection of a batch

`_acquire_batch` without a bound on its depth (`AcquireBatch`). A call for some instruments
returns : every instrument is in one accepted quote or in one quarantine record, and an
instrument that is answered alone with a value is not quarantined for what the gateway makes
of others (`acquireBatch_complete`).

A call for no instruments whose request fails does not return, and a gateway that gives an
instrument another record beside an instrument that fails gets it quarantined
(`acquireBatch_incomplete`).
-/

namespace MarketMonitor

open Transaction

/-! ## The calls -/

/-- `_AcceptedBatch` -/
structure AcceptedBatch where
  instruments : List TdxInstrument
  quotes : List TdxQuote
  deriving DecidableEq

/-- An error after which a batch is halved : `except (OSError, RuntimeError, ValueError)`
without `TdxTransportError`. -/
def Exn.halves (e : Exn) : Prop := e.cls ≠ .tdxTransportError ∧ e.cls.isRequestFailure

instance (e : Exn) : Decidable e.halves := inferInstanceAs (Decidable (_ ∧ _))

/-- The batch of an answered request, when it has a quote. -/
def acceptedBatch (instruments : List TdxInstrument) (outcomes : List (Option TdxQuote)) :
    List AcceptedBatch :=
  if outcomes.filterMap id ≠ [] then [⟨instruments, outcomes.filterMap id⟩] else []

section Calls

variable (epochUid : Uid) (gateway : TdxGateway) (observedAt : Instant)

/-- A call of `_acquire_batch` that returns, with the accepted batches and the number of
quarantined instruments it returns. -/
inductive AcquireBatch :
    List TdxInstrument → ProviderState → List AcceptedBatch → ℕ → ProviderState → Prop
  | answered {instruments : List TdxInstrument} {rawQuotes : List TdxRawQuote}
      {outcomes : List (Option TdxQuote)} {s s' : ProviderState}
      (hrequest : requestQuotes gateway instruments = .ok rawQuotes)
      (hrun : (examineAll epochUid observedAt rawQuotes instruments).run s = .ok outcomes s') :
    AcquireBatch instruments s (acceptedBatch instruments outcomes)
      (outcomes.countP Option.isNone) s'
  | alone {instrument : TdxInstrument} {e : Exn} {s s' : ProviderState}
      (hrequest : requestQuotes gateway [instrument] = .error e) (herror : e.halves)
      (hrun : (onTables (recordQuarantine epochUid instrument.identity "INVALID_RESPONSE"
        observedAt)).run s = .ok () s') :
    AcquireBatch [instrument] s [] 1 s'
  | halved {instruments : List TdxInstrument} {e : Exn} {s s' s'' : ProviderState}
      {left right : List AcceptedBatch} {leftQuarantined rightQuarantined : ℕ}
      (hrequest : requestQuotes gateway instruments = .error e) (herror : e.halves)
      (hlength : instruments.length ≠ 1)
      (hleft : AcquireBatch (instruments.take (instruments.length / 2)) s left leftQuarantined s')
      (hright : AcquireBatch (instruments.drop (instruments.length / 2)) s' right
        rightQuarantined s'') :
    AcquireBatch instruments s (left ++ right) (leftQuarantined + rightQuarantined) s''

end Calls

/-! ## What a call leaves -/

/-- A quarantine record : the row of its instrument is updated, or else one is inserted. -/
def quarantineRow (epochUid : Uid) (observedAt : Instant) (rows : List TdxSymbolQuarantine)
    (record : TdxInstrument × String) : List TdxSymbolQuarantine :=
  if rows.any (TdxSymbolQuarantine.isOf epochUid record.1.identity) then
    rows.map fun row =>
      if row.isOf epochUid record.1.identity then row.fail record.2 observedAt else row
  else
    rows ++ [⟨epochUid, record.1.identity.1, record.1.identity.2, record.2, 1, observedAt,
      observedAt + retryDelay⟩]

/-- The record an answer has for an instrument : `by_identity[…]`. -/
def recordOf (rawQuotes : List TdxRawQuote) (instrument : TdxInstrument) : Option TdxRawQuote :=
  (rawQuotes.filter fun q => q.identity = instrument.identity).getLast?

/-- Why an instrument is quarantined : its own request fails, or its record in an answered
request of instruments that were asked for is not accepted. -/
def Rejected (gateway : TdxGateway) (observedAt : Instant) (s : ProviderState)
    (instruments : List TdxInstrument) (instrument : TdxInstrument) : Prop :=
  (∃ e, requestQuotes gateway [instrument] = .error e) ∨
    ∃ request rawQuotes raw, request.Sublist instruments ∧ instrument ∈ request ∧
      requestQuotes gateway request = .ok rawQuotes ∧ recordOf rawQuotes instrument = some raw ∧
        acceptedQuote (normalizeQuote raw instrument observedAt
          (s.previousQuotes instrument.identity)) = none

/-- What a call for some instruments leaves, with the quarantine records it makes. -/
structure Completed (epochUid : Uid) (gateway : TdxGateway) (observedAt : Instant)
    (instruments : List TdxInstrument) (s : ProviderState) (batches : List AcceptedBatch)
    (records : List (TdxInstrument × String)) (s' : ProviderState) : Prop where
  /-- The records are the ones of the database. -/
  recorded : s'.tables = { s.tables with
    tdxSymbolQuarantine :=
      records.foldl (quarantineRow epochUid observedAt) s.tables.tdxSymbolQuarantine }
  /-- Every instrument is in one quote or in one record. -/
  once : ((batches.flatMap AcceptedBatch.quotes).map TdxQuote.instrument ++
    records.map Prod.fst).Perm instruments
  /-- The batches have their instruments in the order of the request. -/
  order : (batches.flatMap AcceptedBatch.instruments).Sublist instruments
  /-- A batch has some of its instruments, in their order. -/
  batch : ∀ b ∈ batches, b.quotes ≠ [] ∧ (b.quotes.map TdxQuote.instrument).Sublist b.instruments
  rejected : ∀ instrument ∈ records.map Prod.fst,
    Rejected gateway observedAt s instruments instrument

/-- The gateway raises nothing but what halves a batch. -/
def HalvingErrors (gateway : TdxGateway) (instruments : List TdxInstrument) : Prop :=
  ∀ request e, request.Sublist instruments → gateway request = .error e → e.halves

/-- An answered request gives an instrument that is answered alone the record it has alone. -/
def AnswersAlike (gateway : TdxGateway) (instruments : List TdxInstrument) : Prop :=
  ∀ request rawQuotes, request.Sublist instruments →
    requestQuotes gateway request = .ok rawQuotes → ∀ instrument ∈ request, ∀ own,
      requestQuotes gateway [instrument] = .ok own →
        recordOf rawQuotes instrument = recordOf own instrument

variable {epochUid : Uid} {gateway : TdxGateway} {now : Instant} {instruments : List TdxInstrument}
  {s s' : ProviderState}

/-! ## Quarantine records -/

/-- The row that a quarantine record leaves. -/
theorem run_recordQuarantine_eq {t : MarketTables} (hepoch : (t.epoch? epochUid).isSome)
    (instrument : TdxInstrument) (reason : String) :
    (recordQuarantine epochUid instrument.identity reason now).run t =
      .ok () { t with
        tdxSymbolQuarantine :=
          quarantineRow epochUid now t.tdxSymbolQuarantine (instrument, reason) } := by
  rw [recordQuarantine, run_bind_of_ok (run_get t), quarantineRow]
  dsimp only
  split
  · rfl
  · rw [run_bind_of_ok ((run_require_eq_ok (u := ())).mpr ⟨hepoch, rfl⟩)]
    rfl

theorem run_quarantine_eq (hepoch : (s.tables.epoch? epochUid).isSome)
    (instrument : TdxInstrument) (reason : String) :
    (onTables (recordQuarantine epochUid instrument.identity reason now)).run s =
      .ok () { s with tables := { s.tables with
        tdxSymbolQuarantine :=
          quarantineRow epochUid now s.tables.tdxSymbolQuarantine (instrument, reason) } } := by
  have happly : ∀ command : MarketCommand PUnit, (onTables command).run s = onTables command s :=
    fun _ => rfl
  rw [happly, onTables, run_recordQuarantine_eq hepoch]

/-! ## Answered requests -/

/-- The quarantine record of an examination, if it makes one. -/
def examineRecord (instrument : TdxInstrument) (outcome : Except TdxInvalidRecord TdxQuote) :
    List (TdxInstrument × String) :=
  if acceptedQuote outcome = none then [(instrument, quarantineReason outcome)] else []

/-- What the examination of one record leaves. -/
theorem run_examine_eq (hepoch : (s.tables.epoch? epochUid).isSome) (instrument : TdxInstrument)
    (raw : TdxRawQuote) :
    ∃ s', (examine epochUid now instrument raw).run s =
        .ok (acceptedQuote (normalizeQuote raw instrument now
          (s.previousQuotes instrument.identity))) s' ∧
      s'.tables = { s.tables with
        tdxSymbolQuarantine := (examineRecord instrument (normalizeQuote raw instrument now
          (s.previousQuotes instrument.identity))).foldl (quarantineRow epochUid now)
            s.tables.tdxSymbolQuarantine } := by
  rw [examine, run_bind_of_ok (run_get s)]
  dsimp only
  rw [run_bind_of_ok ((run_set_eq_ok (u := ⟨⟩)).mpr rfl), examineRecord]
  split
  · refine ⟨_, run_bind_of_ok (run_quarantine_eq ?_ instrument _), rfl⟩
    exact hepoch
  · exact ⟨_, rfl, rfl⟩

/-- What the examination of some instruments leaves, with the records it makes. -/
structure Examined (epochUid : Uid) (now : Instant) (rawQuotes : List TdxRawQuote)
    (instruments : List TdxInstrument) (s : ProviderState) (outcomes : List (Option TdxQuote))
    (records : List (TdxInstrument × String)) (s' : ProviderState) : Prop where
  count : outcomes.countP Option.isNone = records.length
  once : ((outcomes.filterMap id).map TdxQuote.instrument ++
    records.map Prod.fst).Perm instruments
  order : ((outcomes.filterMap id).map TdxQuote.instrument).Sublist instruments
  recorded : s'.tables = { s.tables with
    tdxSymbolQuarantine :=
      records.foldl (quarantineRow epochUid now) s.tables.tdxSymbolQuarantine }
  rejected : ∀ instrument ∈ records.map Prod.fst, ∃ raw, recordOf rawQuotes instrument = some raw ∧
    acceptedQuote (normalizeQuote raw instrument now
      (s.previousQuotes instrument.identity)) = none

/-- What the examination of an answer leaves : a quote or a record of each instrument. -/
theorem run_examineAll_eq {rawQuotes : List TdxRawQuote}
    (hepoch : (s.tables.epoch? epochUid).isSome)
    (hcovered : ∀ i ∈ instruments, i.identity ∈ rawQuotes.map TdxRawQuote.identity)
    (hnodup : (instruments.map TdxInstrument.identity).Nodup) :
    ∃ outcomes records s', (examineAll epochUid now rawQuotes instruments).run s =
        .ok outcomes s' ∧ Examined epochUid now rawQuotes instruments s outcomes records s' := by
  induction instruments generalizing s with
  | nil => exact ⟨[], [], s, rfl, rfl, .refl _, .refl _, rfl, fun _ h => absurd h List.not_mem_nil⟩
  | cons instrument instruments ih =>
    unfold examineAll
    cases hlast : (rawQuotes.filter fun q => q.identity = instrument.identity).getLast? with
    | none =>
      obtain ⟨raw, hraw, heq⟩ := List.mem_map.mp (hcovered instrument List.mem_cons_self)
      have hmem : raw ∈ rawQuotes.filter fun q => q.identity = instrument.identity :=
        List.mem_filter.mpr ⟨hraw, decide_eq_true heq⟩
      rw [List.getLast?_eq_none_iff.mp hlast] at hmem
      exact absurd hmem List.not_mem_nil
    | some raw =>
      obtain ⟨s₁, hrun, htables⟩ := @run_examine_eq _ now _ hepoch instrument raw
      obtain ⟨s₁', hrun₁, hacquired⟩ := run_examine hepoch now instrument raw
      obtain rfl : s₁ = s₁' := by
        have := hrun.symm.trans hrun₁
        cases this
        rfl
      obtain ⟨outcomes, records, s₂, hrun₂, hexamined⟩ := ih (hacquired.epoch hepoch)
        (fun i hi => hcovered i (List.mem_cons_of_mem _ hi)) hnodup.of_cons
      refine ⟨_, examineRecord instrument (normalizeQuote raw instrument now
        (s.previousQuotes instrument.identity)) ++ records, s₂,
        (run_bind_of_ok hrun).trans ((run_bind_of_ok hrun₂).trans rfl), ?_⟩
      have hrest : ∀ i ∈ instruments, s₁.previousQuotes i.identity = s.previousQuotes i.identity :=
        @Acquired.memory_eq [instrument] _ _ _ hacquired hnodup
      generalize houtcome : normalizeQuote raw instrument now
        (s.previousQuotes instrument.identity) = outcome at *
      constructor
      case count =>
        rw [List.countP_cons, List.length_append, hexamined.count, examineRecord, Nat.add_comm]
        cases acceptedQuote outcome <;> rfl
      case once =>
        cases haccepted : acceptedQuote outcome with
        | none =>
          rw [examineRecord, if_pos haccepted]
          exact List.perm_middle.trans (hexamined.once.cons instrument)
        | some quote =>
          rw [examineRecord, if_neg (by rw [haccepted]; simp)]
          have hinstrument : quote.instrument = instrument := by
            rw [← houtcome] at haccepted
            exact instrument_of_acceptedQuote haccepted
          change (quote.instrument :: _).Perm _
          rw [hinstrument]
          exact hexamined.once.cons instrument
      case order =>
        cases haccepted : acceptedQuote outcome with
        | none => exact hexamined.order.cons instrument
        | some quote =>
          have hinstrument : quote.instrument = instrument := by
            rw [← houtcome] at haccepted
            exact instrument_of_acceptedQuote haccepted
          change (quote.instrument :: _).Sublist _
          rw [hinstrument]
          exact hexamined.order.cons_cons instrument
      case recorded =>
        rw [hexamined.recorded, htables, List.foldl_append]
      case rejected =>
        intro i hi
        rw [List.map_append, List.mem_append] at hi
        rcases hi with hi | hi
        · rw [examineRecord] at hi
          split_ifs at hi with hnone
          · obtain rfl : i = instrument := by simpa using hi
            exact ⟨raw, hlast, houtcome ▸ hnone⟩
          · cases hi
        · have hmem : i ∈ instruments := hexamined.once.subset (List.mem_append_right _ hi)
          rw [← hrest i hmem]
          exact hexamined.rejected i hi

/-! ## Calls -/

theorem HalvingErrors.sublist {request : List TdxInstrument} (h : HalvingErrors gateway instruments)
    (hrequest : request.Sublist instruments) : HalvingErrors gateway request :=
  fun request' e hrequest' => h request' e (hrequest'.trans hrequest)

/-- A request that fails halves the batch. -/
theorem HalvingErrors.halves {e : Exn} (h : HalvingErrors gateway instruments)
    (hrequest : requestQuotes gateway instruments = .error e) : e.halves := by
  unfold requestQuotes at hrequest
  cases hanswer : gateway instruments with
  | error e' =>
    rw [hanswer] at hrequest
    cases hrequest
    exact h instruments _ (.refl _) hanswer
  | ok rawQuotes =>
    rw [hanswer] at hrequest
    change (check _ _ >>= _) = _ at hrequest
    unfold check at hrequest
    split at hrequest
    · cases hrequest
    · cases hrequest
      decide

theorem Rejected.sublist {request : List TdxInstrument} {instrument : TdxInstrument}
    (h : Rejected gateway now s request instrument) (hrequest : request.Sublist instruments) :
    Rejected gateway now s instruments instrument := by
  rcases h with h | ⟨request', rawQuotes, raw, hrequest', h⟩
  · exact .inl h
  · exact .inr ⟨request', rawQuotes, raw, hrequest'.trans hrequest, h⟩

theorem Rejected.congr {instrument : TdxInstrument}
    (hmemory : s'.previousQuotes instrument.identity = s.previousQuotes instrument.identity)
    (h : Rejected gateway now s' instruments instrument) :
    Rejected gateway now s instruments instrument := by
  unfold Rejected at h ⊢
  rwa [hmemory] at h

/-- The calls for the two halves of a batch. -/
theorem Completed.append {left right : List TdxInstrument} {s₁ : ProviderState}
    {batches batches' : List AcceptedBatch} {records records' : List (TdxInstrument × String)}
    (h : Completed epochUid gateway now left s batches records s₁)
    (h' : Completed epochUid gateway now right s₁ batches' records' s')
    (hmemory : ∀ i ∈ right, s₁.previousQuotes i.identity = s.previousQuotes i.identity) :
    Completed epochUid gateway now (left ++ right) s (batches ++ batches') (records ++ records')
      s' where
  recorded := by rw [h'.recorded, h.recorded, List.foldl_append]
  once := by
    rw [List.flatMap_append, List.map_append, List.map_append, List.append_assoc]
    refine .trans ?_ (h.once.append h'.once)
    rw [List.append_assoc]
    refine .append_left _ ?_
    rw [← List.append_assoc, ← List.append_assoc]
    exact .append_right _ List.perm_append_comm
  order := by
    rw [List.flatMap_append]
    exact h.order.append h'.order
  batch b hb := (List.mem_append.mp hb).elim (h.batch b) (h'.batch b)
  rejected i hi := by
    rw [List.map_append, List.mem_append] at hi
    rcases hi with hi | hi
    · exact (h.rejected i hi).sublist (List.sublist_append_left _ _)
    · have hmem : i ∈ right := h'.once.subset (List.mem_append_right _ hi)
      exact ((h'.rejected i hi).congr (hmemory i hmem)).sublist (List.sublist_append_right _ _)

/-- An answered request is complete. -/
theorem completed_of_examined {rawQuotes : List TdxRawQuote} {outcomes : List (Option TdxQuote)}
    {records : List (TdxInstrument × String)}
    (hrequest : requestQuotes gateway instruments = .ok rawQuotes)
    (h : Examined epochUid now rawQuotes instruments s outcomes records s') :
    Completed epochUid gateway now instruments s (acceptedBatch instruments outcomes) records
      s' where
  recorded := h.recorded
  once := by
    have hquotes : (acceptedBatch instruments outcomes).flatMap AcceptedBatch.quotes =
        outcomes.filterMap id := by
      unfold acceptedBatch
      split
      · exact List.flatMap_singleton ..
      · next hnil => exact (not_not.mp hnil).symm
    rw [hquotes]
    exact h.once
  order := by
    unfold acceptedBatch
    split
    · rw [List.flatMap_singleton]
    · exact List.nil_sublist _
  batch b hb := by
    unfold acceptedBatch at hb
    split at hb
    · next hne =>
      rw [List.mem_singleton.mp hb]
      exact ⟨hne, h.order⟩
    · cases hb
  rejected i hi := by
    obtain ⟨raw, hraw, hnone⟩ := h.rejected i hi
    exact .inr ⟨instruments, rawQuotes, raw, .refl _, h.once.subset (List.mem_append_right _ hi),
      hrequest, hraw, hnone⟩

/-- What a call that returns leaves. -/
theorem AcquireBatch.completed {batches : List AcceptedBatch} {count : ℕ}
    (h : AcquireBatch epochUid gateway now instruments s batches count s')
    (hnodup : (instruments.map TdxInstrument.identity).Nodup)
    (hepoch : (s.tables.epoch? epochUid).isSome) :
    ∃ records, count = records.length ∧
      Completed epochUid gateway now instruments s batches records s' ∧
      Acquired instruments s s' := by
  induction h with
  | answered hrequest hrun =>
    obtain ⟨outcomes, records, s₁, hrun₁, hexamined⟩ := @run_examineAll_eq _ now _ _ _ hepoch
      (requestQuotes_covers hrequest) hnodup
    obtain ⟨_, s₂, hrun₂, -, hacquired⟩ := run_examineAll now hepoch
      (requestQuotes_covers hrequest) hnodup
    cases hrun.symm.trans hrun₁
    cases hrun.symm.trans hrun₂
    exact ⟨records, hexamined.count, completed_of_examined hrequest hexamined, hacquired⟩
  | @alone instrument e s s' hrequest herror hrun =>
    cases hrun.symm.trans (run_quarantine_eq hepoch instrument "INVALID_RESPONSE")
    refine ⟨[(instrument, "INVALID_RESPONSE")], rfl, ⟨rfl, .refl _, List.nil_sublist _,
      fun b hb => absurd hb List.not_mem_nil, fun i hi => ?_⟩, ⟨_, rfl⟩, fun _ _ => rfl⟩
    obtain rfl := List.mem_singleton.mp hi
    exact .inl ⟨e, hrequest⟩
  | @halved instruments e s s₁ s₂ left right countL countR hrequest herror hlength hleft hright
      ihLeft ihRight =>
    rw [← List.take_append_drop (instruments.length / 2) instruments] at hnodup
    have hparts := List.map_append ▸ hnodup
    obtain ⟨records, hcount, hcompleted, hacquired⟩ :=
      ihLeft (List.nodup_append.mp hparts).1 hepoch
    obtain ⟨records', hcount', hcompleted', hacquired'⟩ :=
      ihRight (List.nodup_append.mp hparts).2.1 (hacquired.epoch hepoch)
    have happend := hcompleted.append hcompleted' (hacquired.memory_eq hnodup)
    have hboth := hacquired.append hacquired'
    rw [List.take_append_drop] at happend hboth
    exact ⟨records ++ records', by rw [List.length_append, hcount, hcount'], happend, hboth⟩

/-- A call for some instruments returns. -/
theorem exists_acquireBatch (n : ℕ) : ∀ {instruments : List TdxInstrument} {s : ProviderState},
    instruments.length ≤ n → instruments ≠ [] →
      (instruments.map TdxInstrument.identity).Nodup → HalvingErrors gateway instruments →
      (s.tables.epoch? epochUid).isSome →
      ∃ batches count s', AcquireBatch epochUid gateway now instruments s batches count s' := by
  induction n with
  | zero =>
    intro instruments s hlength hne
    exact absurd (List.length_eq_zero_iff.mp (Nat.le_zero.mp hlength)) hne
  | succ n ih =>
    intro instruments s hlength hne hnodup herrors hepoch
    cases hrequest : requestQuotes gateway instruments with
    | ok rawQuotes =>
      obtain ⟨outcomes, records, s', hrun, -⟩ := @run_examineAll_eq _ now _ _ _ hepoch
        (requestQuotes_covers hrequest) hnodup
      exact ⟨_, _, s', .answered hrequest hrun⟩
    | error e =>
      have herror := herrors.halves hrequest
      by_cases hone : instruments.length = 1
      · obtain ⟨instrument, rfl⟩ := List.length_eq_one_iff.mp hone
        exact ⟨_, _, _, .alone hrequest herror
          (run_quarantine_eq hepoch instrument "INVALID_RESPONSE")⟩
      · have hpos := List.length_pos_iff.mpr hne
        have hparts : ((instruments.take (instruments.length / 2) ++
            instruments.drop (instruments.length / 2)).map TdxInstrument.identity).Nodup := by
          rwa [List.take_append_drop]
        rw [List.map_append] at hparts
        obtain ⟨left, countL, s₁, hleft⟩ := @ih
          (instruments.take (instruments.length / 2)) s
          (by rw [List.length_take]; omega)
          (List.length_pos_iff.mp (by rw [List.length_take]; omega))
          (List.nodup_append.mp hparts).1 (herrors.sublist (List.take_sublist _ _)) hepoch
        obtain ⟨-, -, -, hacquired⟩ := hleft.completed (List.nodup_append.mp hparts).1 hepoch
        obtain ⟨right, countR, s₂, hright⟩ := @ih
          (instruments.drop (instruments.length / 2)) s₁
          (by rw [List.length_drop]; omega)
          (List.length_pos_iff.mp (by rw [List.length_drop]; omega))
          (List.nodup_append.mp hparts).2.1 (herrors.sublist (List.drop_sublist _ _))
          (hacquired.epoch hepoch)
        exact ⟨_, _, s₂, .halved hrequest herror hone hleft hright⟩

/-- An instrument that is answered alone with a value is not rejected. -/
theorem not_rejected {instrument : TdxInstrument} {own : List TdxRawQuote} {raw : TdxRawQuote}
    {quote : TdxQuote} (halike : AnswersAlike gateway instruments)
    (hown : requestQuotes gateway [instrument] = .ok own)
    (hraw : recordOf own instrument = some raw)
    (hquote : normalizeQuote raw instrument now (s.previousQuotes instrument.identity) =
      .ok quote) (hvalue : quote.quoteStatus = .value) :
    ¬Rejected gateway now s instruments instrument := by
  rintro (⟨e, herror⟩ | ⟨request, rawQuotes, raw', hrequest, hmem, hanswer, hraw', hnone⟩)
  · cases hown.symm.trans herror
  · rw [halike request rawQuotes hrequest hanswer instrument hmem own hown, hraw] at hraw'
    cases hraw'
    rw [hquote, acceptedQuote, if_pos hvalue] at hnone
    cases hnone

/-- A call for some instruments returns, and leaves what it should : it makes as many
quarantine records as it says, and none of an instrument that is answered alone with a value,
when answers are alike. -/
theorem acquireBatch_complete (hne : instruments ≠ [])
    (hnodup : (instruments.map TdxInstrument.identity).Nodup)
    (herrors : HalvingErrors gateway instruments)
    (hepoch : (s.tables.epoch? epochUid).isSome) :
    (∃ batches count s', AcquireBatch epochUid gateway now instruments s batches count s') ∧
      ∀ batches count s', AcquireBatch epochUid gateway now instruments s batches count s' →
        ∃ records, count = records.length ∧
          Completed epochUid gateway now instruments s batches records s' ∧
          (AnswersAlike gateway instruments → ∀ instrument own raw quote,
            requestQuotes gateway [instrument] = .ok own → recordOf own instrument = some raw →
              normalizeQuote raw instrument now (s.previousQuotes instrument.identity) =
                .ok quote → quote.quoteStatus = .value → instrument ∉ records.map Prod.fst) := by
  refine ⟨exists_acquireBatch _ le_rfl hne hnodup herrors hepoch, fun batches count s' h => ?_⟩
  obtain ⟨records, hcount, hcompleted, -⟩ := h.completed hnodup hepoch
  refine ⟨records, hcount, hcompleted, fun halike instrument own raw quote hown hraw hquote hvalue
    hmem => ?_⟩
  exact not_rejected halike hown hraw hquote hvalue (hcompleted.rejected instrument hmem)

/-! ## The bounded calls -/

/-- A call that returns is the one of a provider's poll, whose bound it does not reach. -/
theorem AcquireBatch.run_acquireBatch {batches : List AcceptedBatch} {count : ℕ}
    (h : AcquireBatch epochUid gateway now instruments s batches count s')
    (hne : instruments ≠ []) {fuel : ℕ} (hfuel : instruments.length ≤ fuel) :
    (acquireBatch epochUid gateway now fuel instruments).run s =
      .ok (batches.map AcceptedBatch.quotes, count) s' := by
  induction h generalizing fuel with
  | @answered instruments rawQuotes outcomes s s' hrequest hrun =>
    obtain ⟨fuel, rfl⟩ := Nat.exists_eq_add_one_of_ne_zero (n := fuel) (by
      have := List.length_pos_iff.mpr hne
      omega)
    have hquotes : (acceptedBatch instruments outcomes).map AcceptedBatch.quotes =
        if outcomes.filterMap id ≠ [] then [outcomes.filterMap id] else [] := by
      unfold acceptedBatch
      split <;> rfl
    unfold acquireBatch
    rw [hrequest, hquotes]
    dsimp only
    rw [run_bind_of_ok hrun]
    rfl
  | alone hrequest herror hrun =>
    obtain ⟨fuel, rfl⟩ := Nat.exists_eq_add_one_of_ne_zero (n := fuel) (by
      have := List.length_pos_iff.mpr hne
      omega)
    unfold acquireBatch
    rw [hrequest]
    dsimp only
    rw [if_neg (by simp [herror.1, herror.2]), run_bind_of_ok hrun]
    rfl
  | @halved instruments e s s₁ s₂ left right countL countR hrequest herror hlength _ _ ihLeft
      ihRight =>
    have hpos := List.length_pos_iff.mpr hne
    obtain ⟨fuel, rfl⟩ := Nat.exists_eq_add_one_of_ne_zero (n := fuel) (by omega)
    have hleft := ihLeft (List.length_pos_iff.mp (by rw [List.length_take]; omega))
      (show (instruments.take (instruments.length / 2)).length ≤ fuel by
        rw [List.length_take]; omega)
    have hright := ihRight (List.length_pos_iff.mp (by rw [List.length_drop]; omega))
      (show (instruments.drop (instruments.length / 2)).length ≤ fuel by
        rw [List.length_drop]; omega)
    unfold acquireBatch
    rw [hrequest]
    dsimp only
    rw [if_neg (by simp [herror.1, herror.2])]
    rcases instruments with _ | ⟨instrument, _ | ⟨instrument', rest⟩⟩
    · exact absurd rfl hne
    · exact absurd rfl hlength
    · dsimp only
      rw [run_bind_of_ok hleft, run_bind_of_ok hright, List.map_append]
      rfl

/-! ## Calls of two instruments -/

/-- Another instrument of Shanghai. -/
def otherInstrument : TdxInstrument := ⟨1, "600001", .stock, by decide⟩

/-- A record of an instrument at ten yuan, with some lots traded. -/
def rawOf (instrument : TdxInstrument) (volumeLots : ℤ) : TdxRawQuote :=
  ⟨instrument.market, instrument.code, .hundredths 1000, .hundredths 1000, .hundredths 1000,
    .hundredths 1000, .hundredths 1000, volumeLots, 0, .ofInt 0, 0⟩

/-- A gateway that answers for one instrument, with other records when another is asked for
too, which it does not answer for alone. -/
def confusedGateway : TdxGateway := fun request =>
  if otherInstrument ∉ request then .ok (request.map fun instrument => rawOf instrument 5)
  else if request = [oneInstrument, otherInstrument] then
    .ok [rawOf oneInstrument (-5), rawOf otherInstrument 5]
  else .error (valueError "no answer")

/-- The provider of one mapping, before its first poll. -/
def startState : ProviderState := .new oneMappingTables

/-- A gateway that answers for one instrument, and for no request with another. -/
def partialGateway : TdxGateway := fun request =>
  if otherInstrument ∈ request then .error (valueError "no answer")
  else .ok (request.map fun instrument => rawOf instrument 5)

/-- What it answers, it answers alike. -/
theorem partialGateway_alike : AnswersAlike partialGateway [oneInstrument, otherInstrument] := by
  intro request rawQuotes hsub hanswer instrument hmem own hown
  have hrequest : request ∈ [oneInstrument, otherInstrument].sublists := List.mem_sublists.mpr hsub
  rcases (show _ ∨ _ ∨ _ ∨ _ by simpa [List.sublists] using hrequest) with
    rfl | rfl | rfl | rfl
  · cases hmem
  · rw [List.mem_singleton.mp hmem] at hown
    rw [Except.ok.inj (hanswer.symm.trans hown)]
  · cases hanswer
  · cases hanswer

/-- Of two instruments the one that is answered for is not quarantined. -/
theorem acquireBatch_complete_of_one : ∃ batches count s' records,
    AcquireBatch "epoch" partialGateway 7 [oneInstrument, otherInstrument] startState batches count
      s' ∧ count = records.length ∧
    Completed "epoch" partialGateway 7 [oneInstrument, otherInstrument] startState batches records
      s' ∧ oneInstrument ∉ records.map Prod.fst := by
  obtain ⟨⟨batches, count, s', hcall⟩, hcomplete⟩ := @acquireBatch_complete "epoch" partialGateway 7
    [oneInstrument, otherInstrument] startState (by decide) (by decide)
    (fun request e hrequest h => by
      unfold partialGateway at h
      split at h
      · cases h
        decide
      · cases h) rfl
  obtain ⟨records, hcount, hcompleted, hvalued⟩ := hcomplete batches count s' hcall
  exact ⟨batches, count, s', records, hcall, hcount, hcompleted,
    hvalued partialGateway_alike oneInstrument _ _ _ rfl rfl rfl rfl⟩

/-- A call for nothing whose request fails does not return, nor does one whose gateway raises
a `KeyError`, and an instrument that is answered alone with a value is quarantined beside
another that is not. -/
theorem acquireBatch_incomplete :
    (¬∃ batches count s', AcquireBatch "epoch" (fun _ => .error (valueError "empty")) 7 []
      startState batches count s') ∧
    (¬∃ batches count s', AcquireBatch "epoch" (fun _ => .error ⟨.keyError, "quote"⟩) 7
      [oneInstrument] startState batches count s') ∧
    (∀ request : List TdxInstrument, otherInstrument ∉ request →
      confusedGateway request = .ok (request.map fun instrument => rawOf instrument 5)) ∧
    (∃ quote, normalizeQuote (rawOf oneInstrument 5) oneInstrument 7 none = .ok quote ∧
      quote.quoteStatus = .value) ∧
    ∃ batches count s', AcquireBatch "epoch" confusedGateway 7 [oneInstrument, otherInstrument]
      startState batches count s' ∧
        oneInstrument ∉ (batches.flatMap AcceptedBatch.quotes).map TdxQuote.instrument := by
  refine ⟨?_, ?_, fun request h => if_pos h, ⟨_, rfl, rfl⟩, ?_⟩
  · rintro ⟨batches, count, s', h⟩
    generalize startState = s at h
    generalize hnil : ([] : List TdxInstrument) = instruments at h
    induction h with
    | answered hrequest => cases hrequest
    | alone => cases hnil
    | halved _ _ _ _ _ ih => exact ih (by rw [← hnil]; rfl)
  · rintro ⟨batches, count, s', h⟩
    cases h with
    | answered hrequest => cases hrequest
    | alone hrequest herror =>
      cases hrequest
      exact absurd herror (by decide)
    | halved hrequest herror =>
      cases hrequest
      exact absurd herror (by decide)
  · have hrequest : requestQuotes confusedGateway [oneInstrument, otherInstrument] =
        .ok [rawOf oneInstrument (-5), rawOf otherInstrument 5] := by decide +kernel
    refine ⟨_, _, _, @AcquireBatch.answered _ _ _ _ _ [none, some _] _ _ hrequest rfl, ?_⟩
    decide +kernel

end MarketMonitor
