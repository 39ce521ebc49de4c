import MarketMonitor.Library.Run
import MarketMonitor.MarketData.QuoteDetails
import Mathlib.Data.Nat.Pairing

/-!
# The quotes of a provider's calls

Over a run of polls and refreshes, a call stores each accepted quote with its details, and
ends with no `KeyError`, exactly when its accepted quotes are all new : none has the business
key of an earlier quote (`quotes_stored_iff`). A server time that comes again makes one that
is not.
-/

namespace MarketMonitor

open Transaction

/-! ## What other writes leave -/

/-- The same batches, lineages and quotes. -/
structure SameQuotes (t t' : MarketTables) : Prop where
  batches : t'.marketDataBatch = t.marketDataBatch
  records : t'.rawMarketRecord = t.rawMarketRecord
  lineages : t'.quoteLineage = t.quoteLineage
  quotes : t'.marketQuote = t.marketQuote
  issues : t'.quoteQualityIssue = t.quoteQualityIssue
  details : t'.tdxQuoteDetail = t.tdxQuoteDetail

/-- The same quotes, epochs and mappings. -/
structure SameStore (t t' : MarketTables) : Prop extends SameQuotes t t' where
  epochs : t'.marketSourceEpoch = t.marketSourceEpoch
  mappings : t'.providerMapping = t.providerMapping

theorem SameQuotes.trans {t t' t'' : MarketTables} (h : SameQuotes t t') (h' : SameQuotes t' t'') :
    SameQuotes t t'' :=
  ⟨h'.batches.trans h.batches, h'.records.trans h.records, h'.lineages.trans h.lineages,
    h'.quotes.trans h.quotes, h'.issues.trans h.issues, h'.details.trans h.details⟩

theorem SameStore.refl (t : MarketTables) : SameStore t t :=
  ⟨⟨rfl, rfl, rfl, rfl, rfl, rfl⟩, rfl, rfl⟩

section

variable {t t' : MarketTables}

theorem QuoteStore.congr (hs : QuoteStore t) (h : SameQuotes t t') : QuoteStore t' where
  key := h.lineages ▸ hs.key
  current := h.lineages ▸ h.quotes ▸ hs.current
  lineage := h.lineages ▸ h.quotes ▸ hs.lineage
  batch := h.batches ▸ h.quotes ▸ hs.batch
  record := h.batches ▸ h.records ▸ hs.record
  issue := h.issues ▸ h.quotes ▸ hs.issue
  detail := h.details ▸ h.quotes ▸ hs.detail

theorem IngestUids.Fresh.congr {uids : IngestUids} (hs : uids.Fresh t) (h : SameQuotes t t') :
    uids.Fresh t' where
  batch := h.batches ▸ hs.batch
  lineage := h.lineages ▸ hs.lineage
  quote := h.quotes ▸ hs.quote
  lineage_inj := hs.lineage_inj
  quote_inj := hs.quote_inj

theorem Ready.congr {epochUid : Uid} {now : Instant} {uids : ℕ → IngestUids} {sequence : ℕ}
    (hs : Ready epochUid now uids sequence t) (h : SameQuotes t t') :
    Ready epochUid now uids sequence t' where
  store := hs.store.congr h
  batches := h.batches ▸ hs.batches
  fresh j hj := (hs.fresh j hj).congr h

theorem MarketTables.HasDetail.congr {key : String} (hs : t.HasDetail key)
    (h : SameQuotes t t') : t'.HasDetail key := by
  unfold HasDetail
  rw [h.lineages, h.quotes, h.details]
  exact hs

theorem MarketTables.keys_congr (h : SameQuotes t t') : t'.keys = t.keys := by
  rw [keys, keys, h.lineages]

end

/-! ## The acquisition -/

/-- Any error but a failed lookup. -/
def NoKeyError (e : Exn) : Prop := e.cls ≠ .keyError

variable {t₀ : MarketTables} {epochUid : Uid} {now : Instant}

/-- A command of the tables is one of the provider. -/
theorem yields_onTables {α : Type} {P : MarketTables → Prop} {command : MarketCommand α}
    {Q : α → Prop} {E : Exn → Prop} (h : Yields P command Q E) :
    Yields (fun s : ProviderState => P s.tables) (onTables command) Q E := by
  intro s hs
  have hrun := h s.tables hs
  have happly : (onTables command).run s = onTables command s := rfl
  rw [happly, onTables]
  cases hcommand : command.run s.tables with
  | ok a t =>
    rw [hcommand] at hrun
    exact hrun
  | error e t =>
    rw [hcommand] at hrun
    exact hrun

/-- A quarantine record keeps the store. -/
theorem yields_recordQuarantine (identity : TdxIdentity) (reason : String) :
    Yields (SameStore t₀) (recordQuarantine epochUid identity reason now)
      (fun _ => True) NoKeyError := by
  refine yields_get.bind fun t ht => ?_
  have hset : ∀ rows, SameStore t₀ { t with tdxSymbolQuarantine := rows } := fun _ =>
    ⟨⟨ht.batches, ht.records, ht.lineages, ht.quotes, ht.issues, ht.details⟩, ht.epochs,
      ht.mappings⟩
  split
  · exact yields_set (hset _) trivial
  · refine (yields_require fun _ => ?_).bind fun _ _ => yields_set (hset _) trivial
    rintro ⟨⟩

/-- A quote with values is one of the instrument. -/
theorem instrument_of_acceptedQuote {raw : TdxRawQuote} {instrument : TdxInstrument}
    {remembered : Option TdxQuote} {q : TdxQuote}
    (h : acceptedQuote (normalizeQuote raw instrument now remembered) = some q) :
    q.instrument = instrument := by
  cases houtcome : normalizeQuote raw instrument now remembered with
  | error record =>
    rw [houtcome] at h
    cases h
  | ok quote =>
    rw [houtcome, acceptedQuote] at h
    split at h
    · rename_i hvalue
      cases h
      rw [(normalizeQuote_eq_value_iff.mp ⟨houtcome, hvalue⟩).2.2]
      rfl
    · cases h

/-- So does the examination of a record. -/
theorem yields_examine (instrument : TdxInstrument) (raw : TdxRawQuote) :
    Yields (fun s : ProviderState => SameStore t₀ s.tables)
      (examine epochUid now instrument raw) (fun accepted => ∀ q ∈ accepted,
        q.instrument = instrument) NoKeyError := by
  refine yields_get.bind fun s hs => ?_
  refine Yields.bind (P := fun s : ProviderState => SameStore t₀ s.tables)
    (Q := fun _ => True) (yields_set hs trivial) fun _ _ => ?_
  have hreturn : ∀ q ∈ acceptedQuote (normalizeQuote raw instrument now
      (s.previousQuotes instrument.identity)), q.instrument = instrument :=
    fun q hq => instrument_of_acceptedQuote hq
  dsimp only
  split
  · exact (yields_onTables (yields_recordQuarantine _ _)).bind fun _ _ => yields_pure hreturn
  · exact yields_pure hreturn

/-- The accepted quotes of a batch are of instruments of the batch, in their order. -/
theorem yields_examineAll {rawQuotes : List TdxRawQuote} {instruments : List TdxInstrument}
    (hcovered : ∀ i ∈ instruments, i.identity ∈ rawQuotes.map TdxRawQuote.identity) :
    Yields (fun s : ProviderState => SameStore t₀ s.tables)
      (examineAll epochUid now rawQuotes instruments) (fun outcomes =>
        ((outcomes.filterMap id).map TdxQuote.instrument).Sublist instruments) NoKeyError := by
  induction instruments with
  | nil => exact yields_pure (List.Sublist.refl _)
  | cons instrument instruments ih =>
    have hrest := ih fun i hi => hcovered i (List.mem_cons_of_mem _ hi)
    unfold examineAll
    split
    · rename_i hnone
      obtain ⟨raw, hraw, heq⟩ := List.mem_map.mp (hcovered instrument List.mem_cons_self)
      have hmem : raw ∈ rawQuotes.filter fun q => q.identity = instrument.identity :=
        List.mem_filter.mpr ⟨hraw, decide_eq_true heq⟩
      rw [List.getLast?_eq_none_iff.mp hnone] at hmem
      exact absurd hmem List.not_mem_nil
    · refine (yields_examine instrument _).bind fun accepted haccepted =>
        hrest.bind fun outcomes houtcomes => yields_pure ?_
      cases accepted with
      | none => exact houtcomes.cons _
      | some q =>
        have hq := haccepted q rfl
        change ((q :: outcomes.filterMap id).map TdxQuote.instrument).Sublist _
        rw [List.map_cons, hq]
        exact houtcomes.cons_cons _

/-- A gateway that raises no `KeyError`. -/
def GatewayErrors (gateway : TdxGateway) : Prop :=
  ∀ instruments e, gateway instruments = .error e → NoKeyError e

variable {gateway : TdxGateway}

/-- A request raises what its gateway raises. -/
theorem requestQuotes_error (hgateway : GatewayErrors gateway) {instruments : List TdxInstrument}
    {e : Exn} (h : requestQuotes gateway instruments = .error e) : NoKeyError e := by
  unfold requestQuotes at h
  cases hanswer : gateway instruments with
  | error e' =>
    rw [hanswer] at h
    cases h
    exact hgateway instruments _ hanswer
  | ok rawQuotes =>
    rw [hanswer] at h
    simp only [bind, Except.bind, check] at h
    split at h
    · rename_i hcheck
      split at hcheck
      · cases hcheck
      · cases hcheck
        cases h
        rintro ⟨⟩
    · cases h

theorem requestQuotes_covers {instruments : List TdxInstrument} {rawQuotes : List TdxRawQuote}
    (h : requestQuotes gateway instruments = .ok rawQuotes) :
    ∀ i ∈ instruments, i.identity ∈ rawQuotes.map TdxRawQuote.identity := by
  unfold requestQuotes at h
  simp only [except_bind_eq_ok, check_eq_ok] at h
  obtain ⟨raw, -, -, ⟨-, -, hcovers⟩, hreturn⟩ := h
  cases hreturn
  exact hcovers

/-- The accepted batches are of instruments that were asked for, in their order. -/
theorem yields_acquireBatch (hgateway : GatewayErrors gateway) (fuel : ℕ)
    (instruments : List TdxInstrument) :
    Yields (fun s : ProviderState => SameStore t₀ s.tables)
      (acquireBatch epochUid gateway now fuel instruments) (fun result =>
        ∀ quotes ∈ result.1, (quotes.map TdxQuote.instrument).Sublist instruments)
      NoKeyError := by
  induction fuel generalizing instruments with
  | zero => exact yields_pure fun quotes hquotes => absurd hquotes List.not_mem_nil
  | succ fuel ih =>
    unfold acquireBatch
    split
    · rename_i rawQuotes hrequest
      refine (yields_examineAll (requestQuotes_covers hrequest)).bind fun outcomes houtcomes =>
        yields_pure fun quotes hquotes => ?_
      dsimp only at hquotes
      split at hquotes
      · rw [List.mem_singleton.mp hquotes]
        exact houtcomes
      · cases hquotes
    · rename_i e hrequest
      split
      · exact yields_throw (requestQuotes_error hgateway hrequest)
      · split
        · exact (yields_onTables (yields_recordQuarantine _ _)).bind fun _ _ =>
            yields_pure fun quotes hquotes => absurd hquotes List.not_mem_nil
        · rename_i instruments _
          refine (ih _).bind fun left hleft => (ih _).bind fun right hright =>
            yields_pure fun quotes hquotes => ?_
          rcases List.mem_append.mp hquotes with hquotes | hquotes
          · exact (hleft quotes hquotes).trans (List.take_sublist _ _)
          · exact (hright quotes hquotes).trans (List.drop_sublist _ _)

/-- The acquisition keeps the store. -/
theorem yields_acquireBatches (epochUid : Uid) (now : Instant)
    (hgateway : GatewayErrors gateway) (batches : List (List TdxInstrument)) :
    Yields (fun s : ProviderState => SameStore t₀ s.tables)
      (acquireBatches epochUid gateway now batches) (fun result =>
        ∀ quotes ∈ result.1, ∃ batch ∈ batches,
          (quotes.map TdxQuote.instrument).Sublist batch) NoKeyError := by
  induction batches with
  | nil => exact yields_pure fun quotes hquotes => absurd hquotes List.not_mem_nil
  | cons batch batches ih =>
    refine (yields_acquireBatch hgateway _ batch).bind fun first hfirst =>
      ih.bind fun rest hrest => yields_pure fun quotes hquotes => ?_
    rcases List.mem_append.mp hquotes with hquotes | hquotes
    · exact ⟨batch, List.mem_cons_self, hfirst quotes hquotes⟩
    · obtain ⟨other, hother, hsublist⟩ := hrest quotes hquotes
      exact ⟨other, List.mem_cons_of_mem _ hother, hsublist⟩

/-- The codes of quotes of different instruments differ. -/
theorem codes_nodup {quotes : List TdxQuote} {instruments : List TdxInstrument}
    (hsublist : (quotes.map TdxQuote.instrument).Sublist instruments)
    (hnodup : (instruments.map TdxInstrument.identity).Nodup) :
    (quotes.map fun q => q.instrument.externalCode).Nodup := by
  have hidentities := (List.pairwise_map.mp hnodup).sublist hsublist
  have hcodes : ((quotes.map TdxQuote.instrument).map TdxInstrument.externalCode).Nodup :=
    List.pairwise_map.mpr (hidentities.imp fun hne heq => hne (TdxInstrument.externalCode_inj heq))
  rw [List.map_map] at hcodes
  exact hcodes

/-! ## The batches of a poll -/

/-- Quotes that are stored with their details, all of them. -/
def NativeTdxProvider.StoresAll (p : NativeTdxProvider) (t : MarketTables)
    (epoch : MarketSourceEpoch) (now : Instant) (quotes : List TdxQuote) : Prop :=
  p.AllNew t epoch now quotes ∧ ∀ q ∈ quotes, q.Storable

variable {p : NativeTdxProvider} {t t' t'' : MarketTables} {epoch : MarketSourceEpoch}
  {uids : ℕ → IngestUids} {sequence : ℕ} {quotes quotes' : List TdxQuote}

theorem keyOf?_congr (h : t'.providerMapping = t.providerMapping) (q : TdxQuote) :
    p.keyOf? t' epoch now q = p.keyOf? t epoch now q := by
  unfold NativeTdxProvider.keyOf? MarketTables.mappingAt
  rw [h]

/-- Quotes are new after a batch when they are new before and differ from those of the
batch. -/
theorem storesAll_append (h : BatchStored p epoch now uids sequence quotes t t') :
    p.StoresAll t epoch now (quotes ++ quotes') ↔
      p.StoresAll t epoch now quotes ∧ p.StoresAll t' epoch now quotes' := by
  have hkey : ∀ q, p.keyOf? t' epoch now q = p.keyOf? t epoch now q := keyOf?_congr h.mappings
  constructor
  · rintro ⟨⟨hmapped, hnew, hdistinct⟩, hstorable⟩
    obtain ⟨hdistinct₁, hdistinct₂, hacross⟩ := List.pairwise_append.mp hdistinct
    refine ⟨⟨⟨fun q hq => hmapped q (List.mem_append_left _ hq),
      fun q hq => hnew q (List.mem_append_left _ hq), hdistinct₁⟩,
      fun q hq => hstorable q (List.mem_append_left _ hq)⟩, ⟨?_, ?_, ?_⟩,
      fun q hq => hstorable q (List.mem_append_right _ hq)⟩
    · intro q hq
      rw [hkey]
      exact hmapped q (List.mem_append_right _ hq)
    · intro q hq key hmem
      rw [hkey] at hmem
      rw [h.keys]
      rintro (hold | ⟨q', hq', hmem'⟩)
      · exact hnew q (List.mem_append_right _ hq) key hmem hold
      · exact hacross q' hq' q hq (hmem'.trans hmem.symm)
    · exact hdistinct₂.imp fun hne heq => hne (by rwa [hkey, hkey] at heq)
  · rintro ⟨⟨⟨hmapped, hnew, hdistinct⟩, hstorable⟩, ⟨⟨hmapped', hnew', hdistinct'⟩, hstorable'⟩⟩
    refine ⟨⟨fun q hq => ?_, fun q hq key hmem hold => ?_, ?_⟩, fun q hq => ?_⟩
    · rcases List.mem_append.mp hq with hq | hq
      · exact hmapped q hq
      · exact hkey q ▸ hmapped' q hq
    · rcases List.mem_append.mp hq with hq | hq
      · exact hnew q hq key hmem hold
      · exact hnew' q hq key ((hkey q).trans hmem) ((h.keys key).mpr (Or.inl hold))
    · refine List.pairwise_append.mpr ⟨hdistinct, hdistinct'.imp fun hne heq =>
        hne (by rw [hkey, hkey, heq]), fun q hq q' hq' heq => ?_⟩
      obtain ⟨key, hmem⟩ := Option.isSome_iff_exists.mp (hmapped q hq)
      exact hnew' q' hq' key ((hkey q').trans (heq.symm.trans hmem))
        ((h.keys key).mpr (Or.inr ⟨q, hq, hmem⟩))
    · rcases List.mem_append.mp hq with hq | hq
      · exact hstorable q hq
      · exact hstorable' q hq

/-- Two batches that are stored one after the other. -/
theorem BatchStored.trans {sequence' : ℕ} (h : BatchStored p epoch now uids sequence quotes t t')
    (h' : BatchStored p epoch now uids sequence' quotes' t' t'') :
    BatchStored p epoch now uids sequence' (quotes ++ quotes') t t'' where
  epochs := h'.epochs.trans h.epochs
  mappings := h'.mappings.trans h.mappings
  keys key := by
    rw [h'.keys, h.keys, or_assoc]
    refine or_congr_right ?_
    simp only [keyOf?_congr h.mappings, List.mem_append, or_and_right, exists_or]
  details q hq key hmem := by
    rcases List.mem_append.mp hq with hq | hq
    · exact h'.kept key (h.details q hq key hmem)
    · exact h'.details q hq key ((keyOf?_congr h.mappings q).trans hmem)
  kept key hkey := h'.kept key (h.kept key hkey)
  ready := h'.ready

theorem BatchStored.congr (h : BatchStored p epoch now uids sequence quotes t t')
    (hsame : SameStore t' t'') : BatchStored p epoch now uids sequence quotes t t'' where
  epochs := hsame.epochs.trans h.epochs
  mappings := hsame.mappings.trans h.mappings
  keys key := by
    rw [MarketTables.keys_congr hsame.toSameQuotes]
    exact h.keys key
  details q hq key hmem := (h.details q hq key hmem).congr hsame.toSameQuotes
  kept key hkey := (h.kept key hkey).congr hsame.toSameQuotes
  ready := h.ready.congr hsame.toSameQuotes

/-- A batch that is lost after one that is stored. -/
theorem BatchStored.lost {e : Exn} (h : BatchStored p epoch now uids sequence quotes t t')
    (h' : BatchLost p epoch now quotes' t' e t'') :
    BatchLost p epoch now (quotes ++ quotes') t e t'' where
  lost := by
    rcases h'.lost with hkey | ⟨q, hq, key, hmem, hnone⟩
    · exact Or.inl hkey
    · exact Or.inr ⟨q, List.mem_append_right _ hq, key,
        (keyOf?_congr h.mappings q).symm.trans hmem, hnone⟩
  epochs := h'.epochs.trans h.epochs
  store := h'.store
  batches := h'.batches

/-- Quotes that come after those that are lost make no difference. -/
theorem BatchLost.append {e : Exn} (h : BatchLost p epoch now quotes t e t')
    (quotes' : List TdxQuote) : BatchLost p epoch now (quotes ++ quotes') t e t' where
  lost := by
    rcases h.lost with hkey | ⟨q, hq, hlost⟩
    · exact Or.inl hkey
    · exact Or.inr ⟨q, List.mem_append_left _ hq, hlost⟩
  epochs := h.epochs
  store := h.store
  batches := h.batches

theorem StoresAll.left (h : p.StoresAll t epoch now (quotes ++ quotes')) :
    p.StoresAll t epoch now quotes :=
  ⟨⟨fun q hq => h.1.mapped q (List.mem_append_left _ hq),
    fun q hq => h.1.new q (List.mem_append_left _ hq), (List.pairwise_append.mp h.1.distinct).1⟩,
    fun q hq => h.2 q (List.mem_append_left _ hq)⟩

/-- The outcome of storing some quotes in a database : all are stored, or one is lost. -/
structure Storing (p : NativeTdxProvider) (epoch : MarketSourceEpoch) (now : Instant)
    (uids : ℕ → IngestUids) (sequence : ℕ) (quotes : List TdxQuote) (t : MarketTables) {α : Type}
    (result : EStateM.Result Exn MarketTables α) : Prop where
  stored : p.StoresAll t epoch now quotes → ∃ a t', result = .ok a t' ∧
    BatchStored p epoch now uids sequence quotes t t'
  lost : ¬p.StoresAll t epoch now quotes → ∃ e t', result = .error e t' ∧
    BatchLost p epoch now quotes t e t'

/-- Quotes that are stored after others. -/
theorem BatchStored.storing {α : Type} {sequence' : ℕ} {result : EStateM.Result Exn MarketTables α}
    (h : BatchStored p epoch now uids sequence quotes t t')
    (hall : p.StoresAll t epoch now quotes)
    (h' : Storing p epoch now uids sequence' quotes' t' result) :
    Storing p epoch now uids sequence' (quotes ++ quotes') t result where
  stored hboth := by
    obtain ⟨a, t'', hrun, hstored⟩ := h'.stored ((storesAll_append h).mp hboth).2
    exact ⟨a, t'', hrun, h.trans hstored⟩
  lost hnot := by
    obtain ⟨e, t'', hrun, hlost⟩ := h'.lost fun hall' =>
      hnot ((storesAll_append h).mpr ⟨hall, hall'⟩)
    exact ⟨e, t'', hrun, h.lost hlost⟩

/-- Quotes that come after some that are lost. -/
theorem BatchLost.storing {α : Type} {e : Exn} (h : BatchLost p epoch now quotes t e t')
    (hnot : ¬p.StoresAll t epoch now quotes) (quotes' : List TdxQuote) :
    Storing p epoch now uids sequence (quotes ++ quotes') t
      (.error e t' : EStateM.Result Exn MarketTables α) where
  stored hboth := absurd (StoresAll.left hboth) hnot
  lost _ := ⟨e, t', rfl, h.append _⟩

theorem Storing.map {α β : Type} {command : MarketCommand α} {f : α → β}
    (h : Storing p epoch now uids sequence quotes t (command.run t')) :
    Storing p epoch now uids sequence quotes t ((do return f (← command)).run t') where
  stored hall := by
    obtain ⟨a, t'', hrun, hstored⟩ := h.stored hall
    exact ⟨f a, t'', run_bind_of_ok hrun, hstored⟩
  lost hnot := by
    obtain ⟨e, t'', hrun, hlost⟩ := h.lost hnot
    exact ⟨e, t'', run_bind_of_error hrun, hlost⟩

/-- The batches of a poll are stored when all their quotes are. -/
theorem storing_ingestBatches (hnow : now < maxInstant)
    (hdisjoint : ∀ j k, j ≠ k → (uids j).Disjoint (uids k))
    (batches : List (List TdxQuote)) (t : MarketTables) (sequence : ℕ)
    (hready : Ready epoch.epochUid now uids sequence t)
    (hepoch : t.epoch? epoch.epochUid = some epoch)
    (hcodes : ∀ quotes ∈ batches, (quotes.map fun q => q.instrument.externalCode).Nodup) :
    Storing p epoch now uids (sequence + batches.length) batches.flatten t
      ((p.ingestBatches epoch.epochUid now uids sequence batches).run t) := by
  induction batches generalizing t sequence with
  | nil =>
    refine ⟨fun _ => ⟨0, t, rfl, rfl, rfl, fun key => by simp, ?_, fun key h => h, hready⟩,
      fun hnot => absurd ⟨⟨?_, ?_, List.Pairwise.nil⟩, ?_⟩ hnot⟩
    all_goals exact fun q hq => absurd hq List.not_mem_nil
  | cons quotes batches ih =>
    have hcodesFirst := hcodes quotes List.mem_cons_self
    rw [List.flatten_cons, NativeTdxProvider.ingestBatches]
    by_cases hfirst : p.StoresAll t epoch now quotes
    · obtain ⟨n, t', hrun, hstored, -⟩ := run_ingestBatch_of_allNew hready hepoch hnow hcodesFirst
        hfirst.1 hfirst.2 fun j hj => hdisjoint j sequence hj
      have hepoch' : t'.epoch? epoch.epochUid = some epoch := by
        rw [MarketTables.epoch?, hstored.epochs]
        exact hepoch
      have hrest := ih t' (sequence + 1) hstored.ready hepoch' fun quotes' hquotes' =>
        hcodes quotes' (List.mem_cons_of_mem _ hquotes')
      rw [run_bind_of_ok hrun, List.length_cons, Nat.add_comm batches.length, ← Nat.add_assoc]
      exact hstored.storing hfirst hrest.map
    · obtain ⟨e, t', hrun, hlost⟩ := run_ingestBatch_of_not hready hepoch hnow hcodesFirst hfirst
      rw [run_bind_of_error hrun]
      exact hlost.storing hfirst _

/-! ## Health reports -/

section

variable {P : MarketTables → Prop}
  (hP : ∀ t rows, P t → P { t with capabilityHealthReport := rows })

include hP

theorem yields_record (thresholds : HealthThresholds) (capability : String)
    (coveragePpm latencyMs : ℕ) (uid : Uid) :
    Yields P (thresholds.record epochUid capability coveragePpm latencyMs now uid)
      (fun _ => True) NoKeyError := by
  refine (yields_require fun _ => by rintro ⟨⟩).bind fun _ _ => yields_get.bind fun t ht => ?_
  refine (yields_require fun _ => by rintro ⟨⟩).bind fun _ _ => ?_
  refine (yields_insertInto (fun t ht => hP t _ ht) (by rintro ⟨⟩)).bind fun _ _ => ?_
  exact yields_pure trivial

/-- So does the health of the quotes. -/
theorem yields_recordQuoteHealth (poll : Poll) (tdxUniverse : TdxUniverse)
    (quotes : List TdxQuote) :
    Yields P (p.recordQuoteHealth epochUid poll tdxUniverse quotes) (fun _ => True)
      NoKeyError := by
  have hmarket : ∀ market capability, Yields P
      (p.marketHealth epochUid poll tdxUniverse quotes market capability) (fun _ => True)
      NoKeyError := by
    intro market capability
    unfold NativeTdxProvider.marketHealth
    dsimp only
    split
    · exact yields_pure trivial
    · exact (yields_record hP _ _ _ _ _).bind fun _ _ => yields_pure trivial
  unfold NativeTdxProvider.recordQuoteHealth
  refine (hmarket 1 _).bind fun _ _ => (hmarket 0 _).bind fun _ _ => ?_
  dsimp only
  split
  · exact yields_pure trivial
  · exact (yields_record hP _ _ _ _ _).bind fun _ _ => yields_pure trivial

end

theorem SameQuotes.insertReport {t₀ : MarketTables} (t : MarketTables)
    (rows : List CapabilityHealthReport) (h : SameQuotes t₀ t) :
    SameQuotes t₀ { t with capabilityHealthReport := rows } :=
  ⟨h.batches, h.records, h.lineages, h.quotes, h.issues, h.details⟩

theorem coverage_le (completed total : ℕ) : coverage completed total ≤ 1000000 := by
  unfold coverage
  split
  · exact Nat.zero_le _
  · exact Nat.div_le_of_le_mul (Nat.mul_le_mul_right _ (min_le_right _ _))

/-- A report with a new identifier is recorded. -/
theorem run_record {t : MarketTables} (now : Instant) (thresholds : HealthThresholds)
    (capability : String) {coveragePpm : ℕ} (latencyMs : ℕ) {uid : Uid}
    (hcoverage : coveragePpm ≤ 1000000)
    (hepoch : (t.epoch? epochUid).isSome)
    (huid : ∀ r ∈ t.capabilityHealthReport, r.reportUid ≠ uid) :
    ∃ status row, row.reportUid = uid ∧
      (thresholds.record epochUid capability coveragePpm latencyMs now uid).run t =
        .ok status { t with
          capabilityHealthReport := t.capabilityHealthReport ++ [row] } := by
  refine ⟨(thresholds.status coveragePpm latencyMs).1,
    ⟨uid, epochUid, capability, (thresholds.status coveragePpm latencyMs).1,
    (thresholds.status coveragePpm latencyMs).2, coveragePpm, latencyMs, now,
    now + thresholds.validForSeconds * microsPerSecond⟩, rfl, ?_⟩
  rw [HealthThresholds.record,
    run_bind_of_ok ((run_require_eq_ok (u := ())).mpr ⟨hcoverage, rfl⟩),
    run_bind_of_ok (run_get t), run_bind_of_ok ((run_require_eq_ok (u := ())).mpr ⟨hepoch, rfl⟩)]
  refine (run_bind_of_ok (run_insertInto capabilityHealthReportTable _ fun r hr =>
    decide_eq_false fun heq => huid r hr heq.symm)).trans rfl

/-! ## The outcome of a call -/

/-- What a call should do with its accepted quotes : it ends with no `KeyError`, and each
quote of a mapped instrument has a current row with details. -/
structure CallStored (p : NativeTdxProvider) (epoch : MarketSourceEpoch) (now : Instant)
    (accepted : List TdxQuote) (t : MarketTables) {α : Type}
    (result : EStateM.Result Exn ProviderState α) : Prop where
  noKeyError : ∀ e s, result = .error e s → NoKeyError e
  stored : ∀ q ∈ accepted, ∀ key ∈ p.keyOf? t epoch now q,
    (stateAfter result).tables.HasDetail key

/-- A database a call can be made on. -/
structure Callable (epochUid : Uid) (t : MarketTables) : Prop where
  store : QuoteStore t
  batches : ∀ b ∈ t.marketDataBatch, b.epochUid = epochUid → b.receivedAt < maxInstant ∧
    ∃ j, b.providerBatchId = batchIdentifier b.receivedAt j

/-- A call that stored its batch stored its quotes with their details. -/
theorem BatchStored.callStored_iff {α : Type} {result : EStateM.Result Exn ProviderState α}
    (h : BatchStored p epoch now uids sequence quotes t t')
    (hall : p.StoresAll t epoch now quotes) (hsame : SameQuotes t' (stateAfter result).tables)
    (herror : ∀ e s, result = .error e s → NoKeyError e) :
    (CallStored p epoch now quotes t result ↔ p.StoresAll t epoch now quotes) ∧
      Callable epoch.epochUid (stateAfter result).tables := by
  have hready := h.ready.congr hsame
  refine ⟨iff_of_true ⟨herror, fun q hq key hkey => (h.details q hq key hkey).congr hsame⟩ hall,
    hready.store, fun b hb hb' => ?_⟩
  obtain ⟨hmax, -, j, hid, -⟩ := hready.batches b hb hb'
  exact ⟨hmax, j, hid⟩

theorem BatchLost.callStored_iff {α : Type} {e : Exn} {s : ProviderState}
    (h : BatchLost p epoch now quotes t e s.tables) (hnot : ¬p.StoresAll t epoch now quotes) :
    (CallStored p epoch now quotes t (.error e s : EStateM.Result Exn ProviderState α) ↔
      p.StoresAll t epoch now quotes) ∧ Callable epoch.epochUid s.tables := by
  refine ⟨iff_of_false (fun hstored => ?_) hnot, h.store, fun b hb hb' => ?_⟩
  · rcases h.lost with hkey | ⟨q, hq, key, hkey, hnone⟩
    · exact hstored.noKeyError e _ rfl hkey
    · exact hnone (hstored.stored q hq key hkey)
  · obtain ⟨hmax, -, j, hid⟩ := h.batches b hb hb'
    exact ⟨hmax, j, hid⟩

/-- A command with the outcome of storing some quotes, and further commands that leave the
quotes as they are. -/
theorem callStored_iff_of_storing {α β : Type} {t : MarketTables} {s : ProviderState}
    {command : MarketCommand α} {rest : α → ProviderCommand β}
    (h : Storing p epoch now uids sequence quotes t (command.run s.tables))
    (hrest : ∀ a t₀, Yields (fun s => SameQuotes t₀ s.tables) (rest a) (fun _ => True)
      NoKeyError) :
    (CallStored p epoch now quotes t ((onTables command >>= rest).run s) ↔
      p.StoresAll t epoch now quotes) ∧
      Callable epoch.epochUid (stateAfter ((onTables command >>= rest).run s)).tables := by
  have happly : (onTables command).run s = onTables command s := rfl
  by_cases hall : p.StoresAll t epoch now quotes
  · obtain ⟨a, t', hrun, hstored⟩ := h.stored hall
    have hfirst : (onTables command).run s = .ok a { s with tables := t' } := by
      rw [happly, onTables, hrun]
    have hlast := hrest a t' { s with tables := t' } ⟨rfl, rfl, rfl, rfl, rfl, rfl⟩
    rw [run_bind_of_ok hfirst]
    cases hresult : (rest a).run { s with tables := t' } with
    | ok b s' =>
      rw [hresult] at hlast
      refine hstored.callStored_iff hall hlast.1 fun e s'' heq => ?_
      cases heq
    | error e s' =>
      rw [hresult] at hlast
      refine hstored.callStored_iff hall hlast.1 fun e' s'' heq => ?_
      cases heq
      exact hlast.2
  · obtain ⟨e, t', hrun, hlost⟩ := h.lost hall
    have hfirst : (onTables command).run s = .error e { s with tables := t' } := by
      rw [happly, onTables, hrun]
    rw [run_bind_of_error hfirst]
    exact BatchLost.callStored_iff (s := { s with tables := t' }) hlost hall

/-- What a call meets : an epoch, a time after all batches of the epoch, new identifiers and
a gateway. -/
structure CallValid (epochUid : Uid) (epoch : MarketSourceEpoch) (given : Poll)
    (t : MarketTables) : Prop where
  epoch : t.epoch? epochUid = some epoch
  now_lt : given.observedAt < maxInstant
  past : ∀ b ∈ t.marketDataBatch, b.epochUid = epochUid → b.receivedAt < given.observedAt
  fresh : ∀ j, (given.uids j).Fresh t
  disjoint : ∀ j k, j ≠ k → (given.uids j).Disjoint (given.uids k)
  reports : ∀ capability, ∀ r ∈ t.capabilityHealthReport,
    r.reportUid ≠ given.healthUid capability
  healthUid_inj : given.healthUid.Injective
  gateway : GatewayErrors given.gateway

variable {given : Poll} {s : ProviderState}

theorem CallValid.ready (h : CallValid epochUid epoch given t) (ht : Callable epochUid t)
    (sequence : ℕ) : Ready epochUid given.observedAt given.uids sequence t where
  store := ht.store
  batches b hb hb' := by
    obtain ⟨hmax, j, hid⟩ := ht.batches b hb hb'
    have hlt := h.past b hb hb'
    exact ⟨hmax, Nat.le_of_lt hlt, j, hid, fun heq => absurd heq (Nat.ne_of_lt hlt)⟩
  fresh j _ := h.fresh j

theorem Callable.congr (h : Callable epochUid t) (hsame : SameQuotes t t') :
    Callable epochUid t' where
  store := h.store.congr hsame
  batches := hsame.batches ▸ h.batches

/-- A call that accepts nothing. -/
theorem callStored_nil {α : Type} {result : EStateM.Result Exn ProviderState α}
    (herror : ∀ e s, result = .error e s → NoKeyError e) (t : MarketTables) :
    CallStored p epoch now [] t result ↔ p.StoresAll t epoch now [] :=
  iff_of_true ⟨herror, fun _ hq => absurd hq List.not_mem_nil⟩
    ⟨⟨fun _ hq => absurd hq List.not_mem_nil, fun _ hq => absurd hq List.not_mem_nil,
      List.Pairwise.nil⟩, fun _ hq => absurd hq List.not_mem_nil⟩

/-- The quotes a poll accepts. -/
def NativeTdxProvider.polled (p : NativeTdxProvider) (epochUid : Uid) (given : Poll)
    (s : ProviderState) : List TdxQuote :=
  match p.tdxUniverse with
  | none => []
  | some tdxUniverse =>
    match (acquireBatches epochUid given.gateway given.observedAt (batchesOf
      (s.tables.eligible epochUid given.observedAt tdxUniverse) 75)).run s with
    | .ok result _ => result.1.flatten
    | .error _ _ => []

theorem sublist_of_mem_batchesOf {α : Type} {items batch : List α} {size : ℕ}
    (h : batch ∈ batchesOf items size) : batch.Sublist items := by
  obtain ⟨i, -, rfl⟩ := List.mem_map.mp h
  exact (List.take_sublist _ _).trans (List.drop_sublist _ _)

theorem storesAll_congr (h : SameStore t t') :
    p.StoresAll t' epoch now quotes ↔ p.StoresAll t epoch now quotes := by
  have hkey : ∀ q, p.keyOf? t' epoch now q = p.keyOf? t epoch now q := keyOf?_congr h.mappings
  constructor
  · rintro ⟨⟨hmapped, hnew, hdistinct⟩, hstorable⟩
    simp only [hkey, MarketTables.keys_congr h.toSameQuotes] at hmapped hnew hdistinct
    exact ⟨⟨hmapped, hnew, hdistinct⟩, hstorable⟩
  · rintro ⟨⟨hmapped, hnew, hdistinct⟩, hstorable⟩
    refine ⟨⟨?_, ?_, ?_⟩, hstorable⟩
    all_goals simpa only [hkey, MarketTables.keys_congr h.toSameQuotes]

theorem callStored_congr {α : Type} {result : EStateM.Result Exn ProviderState α}
    (h : SameStore t t') :
    CallStored p epoch now quotes t' result ↔ CallStored p epoch now quotes t result := by
  have hkey : ∀ q, p.keyOf? t' epoch now q = p.keyOf? t epoch now q := keyOf?_congr h.mappings
  constructor
  · rintro ⟨hnone, hstored⟩
    exact ⟨hnone, fun q hq key hmem => hstored q hq key ((hkey q).trans hmem)⟩
  · rintro ⟨hnone, hstored⟩
    exact ⟨hnone, fun q hq key hmem => hstored q hq key ((hkey q).symm.trans hmem)⟩

/-- A poll stores its quotes with their details exactly when they are all new and fit the
columns. -/
theorem pollOnce_stored_iff (hvalid : CallValid epochUid epoch given s.tables)
    (hcallable : Callable epochUid s.tables) :
    (CallStored p epoch given.observedAt (p.polled epochUid given s) s.tables
        ((p.pollOnce epochUid given).run s) ↔
      p.StoresAll s.tables epoch given.observedAt (p.polled epochUid given s)) ∧
      Callable epochUid (stateAfter ((p.pollOnce epochUid given).run s)).tables := by
  obtain rfl := MarketTables.epochUid_of_epoch? hvalid.epoch
  unfold NativeTdxProvider.pollOnce NativeTdxProvider.polled
  cases htdxUniverse : p.tdxUniverse with
  | none =>
    refine ⟨callStored_nil (fun e s' h => ?_) _, hcallable⟩
    cases h
    rintro ⟨⟩
  | some tdxUniverse =>
    dsimp only
    rw [run_bind_of_ok (run_get s)]
    have hacquired := yields_acquireBatches epoch.epochUid given.observedAt hvalid.gateway
      (batchesOf (s.tables.eligible epoch.epochUid given.observedAt tdxUniverse) 75)
      s (SameStore.refl _)
    cases hrun : (acquireBatches epoch.epochUid given.gateway given.observedAt (batchesOf
        (s.tables.eligible epoch.epochUid given.observedAt tdxUniverse) 75)).run s with
    | error e s₁ =>
      rw [hrun] at hacquired
      rw [run_bind_of_error hrun]
      refine ⟨callStored_nil (fun e' s' h => ?_) _, hcallable.congr hacquired.1.toSameQuotes⟩
      cases h
      exact hacquired.2
    | ok result s₁ =>
      rw [hrun] at hacquired
      obtain ⟨hsame, hsublists⟩ := hacquired
      rw [run_bind_of_ok hrun]
      have hcodes : ∀ quotes ∈ result.1,
          (quotes.map fun q => q.instrument.externalCode).Nodup := by
        intro quotes hquotes
        obtain ⟨batch, hbatch, hsublist⟩ := hsublists quotes hquotes
        refine codes_nodup (hsublist.trans ((sublist_of_mem_batchesOf hbatch).trans
          List.filter_sublist)) tdxUniverse.primary_nodup
      have hepoch : s₁.tables.epoch? epoch.epochUid = some epoch := by
        rw [MarketTables.epoch?, hsame.epochs]
        exact hvalid.epoch
      have hstoring := storing_ingestBatches (p := p) hvalid.now_lt hvalid.disjoint result.1
        s₁.tables 0 ((hvalid.ready hcallable 0).congr hsame.toSameQuotes) hepoch hcodes
      rw [← storesAll_congr hsame, ← callStored_congr hsame]
      exact callStored_iff_of_storing hstoring fun returned t₀ => (yields_onTables
        (yields_recordQuoteHealth SameQuotes.insertReport _ _ _)).bind fun _ _ =>
          yields_pure trivial

/-! ## The quotes of a refresh -/

/-- The quotes of the context instruments, which are asked for when there are some. -/
def contextAccepted (gateway : TdxGateway) (now : Instant) (instruments : List TdxInstrument) :
    Except Exn (List TdxQuote) :=
  if instruments = [] then .ok [] else contextQuotes gateway now instruments

/-- The context raises what its gateway raises. -/
theorem contextAccepted_error (hgateway : GatewayErrors gateway)
    {instruments : List TdxInstrument} {e : Exn}
    (h : contextAccepted gateway now instruments = .error e) : NoKeyError e := by
  unfold contextAccepted contextQuotes at h
  split at h
  · cases h
  · split at h
    · cases h
    · rename_i e' hrequest
      split at h
      · cases h
      · cases h
        exact requestQuotes_error hgateway hrequest

/-- Values of the elements of a list, in the order of the list. -/
theorem map_filterMap_sublist {α β : Type} {f : α → Option β} {g : β → α}
    (hf : ∀ a, ∀ b ∈ f a, g b = a) (l : List α) : ((l.filterMap f).map g).Sublist l := by
  induction l with
  | nil => exact List.Sublist.refl _
  | cons a l ih =>
    cases ha : f a with
    | none =>
      rw [List.filterMap_cons_none ha]
      exact ih.cons a
    | some b =>
      rw [List.filterMap_cons_some ha, List.map_cons, hf a b ha]
      exact ih.cons_cons a

/-- Its accepted quotes are of some of the instruments, in their order. -/
theorem contextAccepted_sublist {instruments : List TdxInstrument}
    (h : contextAccepted gateway now instruments = .ok quotes) :
    (quotes.map TdxQuote.instrument).Sublist instruments := by
  unfold contextAccepted contextQuotes at h
  split at h
  · cases h
    exact List.nil_sublist _
  · split at h
    · cases h
      refine map_filterMap_sublist (fun instrument q hq => ?_) _
      obtain ⟨raw, -, hq⟩ := Option.bind_eq_some_iff.mp hq
      exact instrument_of_acceptedQuote hq
    · split at h
      · cases h
        exact List.nil_sublist _
      · cases h

/-- The quotes of some context instruments are stored, or not, and a report follows. -/
theorem storing_refreshContextQuotes {instruments : List TdxInstrument} (capability : String)
    (hready : Ready epoch.epochUid given.observedAt given.uids sequence t)
    (hepoch : t.epoch? epoch.epochUid = some epoch) (hnow : given.observedAt < maxInstant)
    (hdisjoint : ∀ j k, j ≠ k → (given.uids j).Disjoint (given.uids k))
    (hreports : ∀ r ∈ t.capabilityHealthReport, r.reportUid ≠ given.healthUid capability)
    (hnodup : (instruments.map TdxInstrument.identity).Nodup)
    (haccepted : contextAccepted given.gateway given.observedAt instruments = .ok quotes) :
    (p.StoresAll t epoch given.observedAt quotes → ∃ t',
      (p.refreshContextQuotes epoch.epochUid given instruments capability sequence).run t =
        .ok () t' ∧
      BatchStored p epoch given.observedAt given.uids (sequence + 1) quotes t t' ∧
      ∀ r ∈ t'.capabilityHealthReport,
        r ∈ t.capabilityHealthReport ∨ r.reportUid = given.healthUid capability) ∧
    (¬p.StoresAll t epoch given.observedAt quotes → ∃ e t',
      (p.refreshContextQuotes epoch.epochUid given instruments capability sequence).run t =
        .error e t' ∧ BatchLost p epoch given.observedAt quotes t e t') := by
  unfold NativeTdxProvider.refreshContextQuotes
  by_cases hempty : instruments = []
  · rw [contextAccepted, if_pos hempty] at haccepted
    cases haccepted
    rw [if_pos hempty]
    refine ⟨fun _ => ⟨t, rfl, hready.batchStored_nil, fun r hr => Or.inl hr⟩,
      fun hnot => absurd ⟨⟨?_, ?_, List.Pairwise.nil⟩, ?_⟩ hnot⟩
    all_goals exact fun q hq => absurd hq List.not_mem_nil
  have hcodes := codes_nodup (contextAccepted_sublist haccepted) hnodup
  rw [contextAccepted, if_neg hempty] at haccepted
  rw [if_neg hempty, run_bind_of_ok (run_fromExcept_eq_ok.mpr ⟨haccepted, rfl⟩)]
  constructor
  · intro hall
    obtain ⟨n, t', hrun, hstored, hsame⟩ := run_ingestBatch_of_allNew hready hepoch hnow hcodes
      hall.1 hall.2 fun j hj => hdisjoint j sequence hj
    have hepoch' : (t'.epoch? epoch.epochUid).isSome := by
      rw [MarketTables.epoch?, hstored.epochs]
      exact Option.isSome_iff_exists.mpr ⟨epoch, hepoch⟩
    obtain ⟨status, row, huid, hrecord⟩ := run_record given.observedAt p.thresholds capability 0
      (coverage_le quotes.length instruments.length) hepoch' (hsame ▸ hreports)
    rw [run_bind_of_ok hrun]
    refine ⟨_, run_bind_of_ok hrecord, ?_, fun r hr => ?_⟩
    · exact hstored.congr ⟨⟨rfl, rfl, rfl, rfl, rfl, rfl⟩, rfl, rfl⟩
    · rcases List.mem_append.mp hr with hr | hr
      · exact Or.inl (hsame ▸ hr)
      · rw [List.mem_singleton.mp hr]
        exact Or.inr huid
  · intro hnot
    obtain ⟨e, t', hrun, hlost⟩ := run_ingestBatch_of_not hready hepoch hnow hcodes hnot
    exact ⟨e, t', run_bind_of_error hrun, hlost⟩

/-- A write that leaves the batches, the lineages and the quotes as they are. -/
structure OtherWrites where
  apply : MarketTables → MarketTables
  keeps : ∀ t, SameQuotes t (apply t)

/-- `refresh_supporting_data(epoch_uid, observed_at)` : the quotes of the context
instruments, and then the bars, the blocks and the sectors. -/
def NativeTdxProvider.refreshSupportingData (p : NativeTdxProvider) (epochUid : Uid)
    (given : Poll) (rest : OtherWrites) : ProviderCommand PUnit := do
  onTables (p.refreshSupportingQuotes epochUid given)
  onTables (modify rest.apply)

/-- The quotes a refresh accepts. -/
def NativeTdxProvider.refreshed (p : NativeTdxProvider) (given : Poll) : List TdxQuote :=
  match p.tdxUniverse with
  | none => []
  | some tdxUniverse =>
    match contextAccepted given.gateway given.observedAt tdxUniverse.contextIndexes with
    | .error _ => []
    | .ok indexes =>
      match contextAccepted given.gateway given.observedAt tdxUniverse.contextEtfs with
      | .error _ => indexes
      | .ok etfs => indexes ++ etfs

theorem refreshContextQuotes_error {instruments : List TdxInstrument} {capability : String}
    {e : Exn} (h : contextAccepted given.gateway given.observedAt instruments = .error e) :
    (p.refreshContextQuotes epochUid given instruments capability sequence).run t = .error e t := by
  unfold contextAccepted at h
  unfold NativeTdxProvider.refreshContextQuotes
  split at h
  · cases h
  · rename_i hempty
    rw [if_neg hempty]
    exact run_bind_of_error (run_fromExcept_eq_error.mpr ⟨h, rfl⟩)

/-- A refresh whose quotes raise raises their error. -/
theorem run_refreshSupportingData_of_error {e : Exn}
    (h : (p.refreshSupportingQuotes epochUid given).run s.tables = .error e t)
    (rest : OtherWrites) :
    (p.refreshSupportingData epochUid given rest).run s = .error e { s with tables := t } := by
  have hquotes : (onTables (p.refreshSupportingQuotes epochUid given)).run s =
      .error e { s with tables := t } := by
    show onTables (p.refreshSupportingQuotes epochUid given) s = _
    rw [onTables, h]
  exact run_bind_of_error hquotes

section Universe

variable {tdxUniverse : TdxUniverse} {indexes etfs : List TdxQuote}

theorem refreshSupportingQuotes_eq (epochUid : Uid) (given : Poll)
    (huniverse : p.tdxUniverse = some tdxUniverse) : p.refreshSupportingQuotes epochUid given = (do
      p.refreshContextQuotes epochUid given tdxUniverse.contextIndexes "INDEX_QUOTES" 100
      p.refreshContextQuotes epochUid given tdxUniverse.contextEtfs "ETF_QUOTES" 101) := by
  rw [NativeTdxProvider.refreshSupportingQuotes, huniverse]

theorem refreshed_of_error {e : Exn} (huniverse : p.tdxUniverse = some tdxUniverse)
    (hindexes : contextAccepted given.gateway given.observedAt tdxUniverse.contextIndexes =
      .ok indexes)
    (hetfs : contextAccepted given.gateway given.observedAt tdxUniverse.contextEtfs = .error e) :
    p.refreshed given = indexes := by
  rw [NativeTdxProvider.refreshed, huniverse]
  dsimp only
  rw [hindexes]
  dsimp only
  rw [hetfs]

theorem refreshed_of_ok (huniverse : p.tdxUniverse = some tdxUniverse)
    (hindexes : contextAccepted given.gateway given.observedAt tdxUniverse.contextIndexes =
      .ok indexes)
    (hetfs : contextAccepted given.gateway given.observedAt tdxUniverse.contextEtfs = .ok etfs) :
    p.refreshed given = indexes ++ etfs := by
  rw [NativeTdxProvider.refreshed, huniverse]
  dsimp only
  rw [hindexes]
  dsimp only
  rw [hetfs]

variable (hvalid : CallValid epoch.epochUid epoch given s.tables)
  (hcallable : Callable epoch.epochUid s.tables) (huniverse : p.tdxUniverse = some tdxUniverse)
  (hindexes : contextAccepted given.gateway given.observedAt tdxUniverse.contextIndexes =
    .ok indexes)

include hvalid hcallable huniverse hindexes

/-- Both batches of context quotes store their quotes exactly when they are all new and fit. -/
theorem storing_refreshSupportingQuotes
    (hetfs : contextAccepted given.gateway given.observedAt tdxUniverse.contextEtfs = .ok etfs) :
    Storing p epoch given.observedAt given.uids 102 (indexes ++ etfs) s.tables
      ((p.refreshSupportingQuotes epoch.epochUid given).run s.tables) := by
  obtain ⟨hfirst, hlost⟩ := storing_refreshContextQuotes (p := p) "INDEX_QUOTES"
    (hvalid.ready hcallable 100) hvalid.epoch hvalid.now_lt hvalid.disjoint (hvalid.reports _)
    tdxUniverse.contextIndexes_nodup hindexes
  rw [refreshSupportingQuotes_eq _ _ huniverse]
  by_cases hall : p.StoresAll s.tables epoch given.observedAt indexes
  · obtain ⟨t', hrun, hstored, hreports⟩ := hfirst hall
    have hepoch' : t'.epoch? epoch.epochUid = some epoch := by
      rw [MarketTables.epoch?, hstored.epochs]
      exact hvalid.epoch
    have hreports' : ∀ r ∈ t'.capabilityHealthReport,
        r.reportUid ≠ given.healthUid "ETF_QUOTES" := by
      intro r hr heq
      rcases hreports r hr with hr | huid
      · exact hvalid.reports _ r hr heq
      · exact absurd (hvalid.healthUid_inj (huid.symm.trans heq)) (by decide)
    obtain ⟨hsecond, hlostSecond⟩ := storing_refreshContextQuotes (p := p) "ETF_QUOTES"
      hstored.ready hepoch' hvalid.now_lt hvalid.disjoint hreports'
      tdxUniverse.contextEtfs_nodup hetfs
    rw [run_bind_of_ok hrun]
    refine hstored.storing hall ⟨fun hall' => ?_, hlostSecond⟩
    obtain ⟨t'', hrun', hstored', -⟩ := hsecond hall'
    exact ⟨(), t'', hrun', hstored'⟩
  · obtain ⟨e', t', hrun, hlost⟩ := hlost hall
    rw [run_bind_of_error hrun]
    exact hlost.storing hall _

/-- The refresh of a gateway that raises for the exchange traded funds. -/
theorem callStored_of_etfs_error {e : Exn}
    (hetfs : contextAccepted given.gateway given.observedAt tdxUniverse.contextEtfs = .error e)
    (rest : OtherWrites) :
    (CallStored p epoch given.observedAt indexes s.tables
        ((p.refreshSupportingData epoch.epochUid given rest).run s) ↔
      p.StoresAll s.tables epoch given.observedAt indexes) ∧
      Callable epoch.epochUid
        (stateAfter ((p.refreshSupportingData epoch.epochUid given rest).run s)).tables := by
  obtain ⟨hfirst, hlost⟩ := storing_refreshContextQuotes (p := p) "INDEX_QUOTES"
    (hvalid.ready hcallable 100) hvalid.epoch hvalid.now_lt hvalid.disjoint (hvalid.reports _)
    tdxUniverse.contextIndexes_nodup hindexes
  have hquotes := refreshSupportingQuotes_eq epoch.epochUid given huniverse
  by_cases hall : p.StoresAll s.tables epoch given.observedAt indexes
  · obtain ⟨t', hrun, hstored, -⟩ := hfirst hall
    rw [run_refreshSupportingData_of_error (hquotes ▸
      (run_bind_of_ok hrun).trans (refreshContextQuotes_error hetfs))]
    refine hstored.callStored_iff hall (SameStore.refl t').toSameQuotes fun e' s' h => ?_
    cases h
    exact contextAccepted_error hvalid.gateway hetfs
  · obtain ⟨e', t', hrun, hlost⟩ := hlost hall
    rw [run_refreshSupportingData_of_error (hquotes ▸ run_bind_of_error hrun)]
    exact BatchLost.callStored_iff (s := { s with tables := t' }) hlost hall

end Universe

/-- A refresh stores its quotes with their details exactly when they are all new and fit the
columns. -/
theorem refreshSupportingData_stored_iff (hvalid : CallValid epochUid epoch given s.tables)
    (hcallable : Callable epochUid s.tables) (rest : OtherWrites) :
    (CallStored p epoch given.observedAt (p.refreshed given) s.tables
        ((p.refreshSupportingData epochUid given rest).run s) ↔
      p.StoresAll s.tables epoch given.observedAt (p.refreshed given)) ∧
      Callable epochUid
        (stateAfter ((p.refreshSupportingData epochUid given rest).run s)).tables := by
  obtain rfl := MarketTables.epochUid_of_epoch? hvalid.epoch
  cases huniverse : p.tdxUniverse with
  | none =>
    obtain ⟨message, hrun⟩ : ∃ message, (p.refreshSupportingQuotes epoch.epochUid given).run
        s.tables = .error ⟨.runtimeError, message⟩ s.tables := by
      rw [NativeTdxProvider.refreshSupportingQuotes, huniverse]
      exact ⟨_, rfl⟩
    rw [run_refreshSupportingData_of_error hrun, NativeTdxProvider.refreshed, huniverse]
    refine ⟨callStored_nil (fun e s' h => ?_) _, hcallable⟩
    cases h
    rintro ⟨⟩
  | some tdxUniverse =>
    cases hindexes : contextAccepted given.gateway given.observedAt
        tdxUniverse.contextIndexes with
    | error e =>
      have hrun : (p.refreshSupportingQuotes epoch.epochUid given).run s.tables =
          .error e s.tables := by
        rw [refreshSupportingQuotes_eq _ _ huniverse]
        exact run_bind_of_error (refreshContextQuotes_error hindexes)
      rw [run_refreshSupportingData_of_error hrun, NativeTdxProvider.refreshed, huniverse]
      dsimp only
      rw [hindexes]
      refine ⟨callStored_nil (fun e' s' h => ?_) _, hcallable⟩
      cases h
      exact contextAccepted_error hvalid.gateway hindexes
    | ok indexes =>
      cases hetfs : contextAccepted given.gateway given.observedAt tdxUniverse.contextEtfs with
      | error e =>
        rw [refreshed_of_error huniverse hindexes hetfs]
        exact callStored_of_etfs_error hvalid hcallable huniverse hindexes hetfs rest
      | ok etfs =>
        rw [refreshed_of_ok huniverse hindexes hetfs]
        exact callStored_iff_of_storing
          (storing_refreshSupportingQuotes hvalid hcallable huniverse hindexes hetfs)
          fun _ t₀ => yields_onTables (yields_modify (fun t ht => ht.trans (rest.keeps t)) trivial)

/-! ## Runs of calls -/

/-- What happens to a provider : a poll or a refresh of its epoch, or other writes. -/
inductive QuoteCall where
  | poll (provider : NativeTdxProvider) (given : Poll)
  | refresh (provider : NativeTdxProvider) (given : Poll) (rest : OtherWrites)
  | other (rest : OtherWrites)

namespace QuoteCall

/-- The state after a call. -/
def next (epochUid : Uid) (s : ProviderState) : QuoteCall → ProviderState
  | poll p given => stateAfter ((p.pollOnce epochUid given).run s)
  | refresh p given rest => stateAfter ((p.refreshSupportingData epochUid given rest).run s)
  | other rest => { s with tables := rest.apply s.tables }

/-- The calls are made in the epoch, at times that increase. -/
def Valid (epochUid : Uid) (s : ProviderState) : QuoteCall → Prop
  | poll _ given | refresh _ given _ => ∃ epoch, CallValid epochUid epoch given s.tables
  | other _ => True

/-- The accepted quotes are stored with their details. -/
def Stores (epochUid : Uid) (s : ProviderState) : QuoteCall → Prop
  | poll p given => ∀ epoch ∈ s.tables.epoch? epochUid,
      CallStored p epoch given.observedAt (p.polled epochUid given s) s.tables
        ((p.pollOnce epochUid given).run s)
  | refresh p given rest => ∀ epoch ∈ s.tables.epoch? epochUid,
      CallStored p epoch given.observedAt (p.refreshed given) s.tables
        ((p.refreshSupportingData epochUid given rest).run s)
  | other _ => True

/-- The accepted quotes are of mapped instruments, have business keys that differ and that no
lineage has, and fit the columns. -/
def OnlyNew (epochUid : Uid) (s : ProviderState) : QuoteCall → Prop
  | poll p given => ∀ epoch ∈ s.tables.epoch? epochUid,
      p.StoresAll s.tables epoch given.observedAt (p.polled epochUid given s)
  | refresh p given _ => ∀ epoch ∈ s.tables.epoch? epochUid,
      p.StoresAll s.tables epoch given.observedAt (p.refreshed given)
  | other _ => True

end QuoteCall

/-- A step of a provider in an epoch. -/
def QuoteStep (epochUid : Uid) (call : QuoteCall) (s s' : ProviderState) : Prop :=
  call.Valid epochUid s ∧ s' = call.next epochUid s

/-- A run of a provider in an epoch. -/
structure QuoteRun (epochUid : Uid) extends Run (QuoteStep epochUid) where
  start : Callable epochUid (state 0).tables

variable {call : QuoteCall}

/-- A call stores its quotes exactly when they are all new, and the next can be made. -/
theorem QuoteCall.stores_iff (hvalid : call.Valid epochUid s) (hs : Callable epochUid s.tables) :
    (call.Stores epochUid s ↔ call.OnlyNew epochUid s) ∧
      Callable epochUid (call.next epochUid s).tables := by
  cases call with
  | poll p given =>
    obtain ⟨epoch, hvalid⟩ := hvalid
    obtain ⟨hiff, hnext⟩ := pollOnce_stored_iff (p := p) hvalid hs
    refine ⟨forall_congr' fun epoch' => forall_congr' fun hepoch => ?_, hnext⟩
    cases hvalid.epoch.symm.trans hepoch
    exact hiff
  | refresh p given rest =>
    obtain ⟨epoch, hvalid⟩ := hvalid
    obtain ⟨hiff, hnext⟩ := refreshSupportingData_stored_iff (p := p) hvalid hs rest
    refine ⟨forall_congr' fun epoch' => forall_congr' fun hepoch => ?_, hnext⟩
    cases hvalid.epoch.symm.trans hepoch
    exact hiff
  | other rest => exact ⟨Iff.rfl, hs.congr (rest.keeps _)⟩

theorem QuoteRun.callable (run : QuoteRun epochUid) (n : ℕ) :
    Callable epochUid (run.state n).tables := by
  refine run.toRun.invariant (P := fun s => Callable epochUid s.tables) run.start ?_ n
  rintro call s s' ⟨hvalid, rfl⟩ hs
  exact (QuoteCall.stores_iff hvalid hs).2

/-- The morning session of a day. -/
def morningCalendar : TradingCalendar := fun _ =>
  some [⟨"CONTINUOUS_AM", minutes 90, minutes 210⟩]

/-- A provider of one instrument with a clock. -/
def clockedProvider : NativeTdxProvider where
  parseRfc3339 _ := none
  clock := some fun _ => morningCalendar
  thresholds := ninetyPercent
  tdxUniverse := some ⟨[oneInstrument], [], [], nodup_identities_singleton oneInstrument,
    nodup_identities_nil, nodup_identities_nil⟩

/-- Identifiers, told apart by a letter and a number. -/
def letterUid (letter : Char) (n : ℕ) : Uid := String.ofList (letter :: Nat.toDigits 10 n)

theorem letterUid_inj {letter letter' : Char} {m n : ℕ}
    (h : letterUid letter m = letterUid letter' n) : letter = letter' ∧ m = n := by
  have hlist := String.ofList_inj.mp h
  exact ⟨List.head_eq_of_cons_eq hlist, toDigits_inj (List.tail_eq_of_cons_eq hlist)⟩

/-- A poll that is answered with a quote of twenty to ten. -/
def repeatedPoll (observedAt : Instant) (letter : Char) : Poll where
  observedAt := observedAt
  gateway _ := .ok [⟨1, "600000", ⟨10, 0⟩, ⟨10, 0⟩, ⟨10, 0⟩, ⟨10, 0⟩, ⟨10, 0⟩, 1000, 0, ⟨1, 6⟩,
    94000⟩]
  durationMs := 0
  uids j := ⟨letterUid letter j, fun i => letterUid letter (Nat.pair j i),
    fun i => letterUid letter (Nat.pair j i)⟩
  healthUid capability := String.ofList (letter :: capability.toList)

/-- Two polls within a minute, and nothing more. -/
def repeatedCalls : ℕ → QuoteCall
  | 0 => .poll clockedProvider (repeatedPoll (minutes 100) 'a')
  | 1 => .poll clockedProvider (repeatedPoll (minutes 101) 'b')
  | _ => .other ⟨id, fun _ => ⟨rfl, rfl, rfl, rfl, rfl, rfl⟩⟩

/-- The poll is valid in tables it is later than. -/
theorem repeatedPoll_valid {observedAt : Instant} {letter : Char} {epoch : MarketSourceEpoch}
    (hepoch : t.epoch? "epoch" = some epoch) (hnow : observedAt < maxInstant)
    (hpast : ∀ b ∈ t.marketDataBatch, b.receivedAt < observedAt)
    (hbatch : ∀ b ∈ t.marketDataBatch, ∀ j, b.batchUid ≠ letterUid letter j)
    (hlineage : ∀ l ∈ t.quoteLineage, ∀ j, l.lineageUid ≠ letterUid letter j)
    (hquote : ∀ q ∈ t.marketQuote, ∀ j, q.quoteUid ≠ letterUid letter j)
    (hreport : ∀ r ∈ t.capabilityHealthReport, r.reportUid.toList.head? ≠ some letter) :
    CallValid "epoch" epoch (repeatedPoll observedAt letter) t where
  epoch := hepoch
  now_lt := hnow
  past b hb _ := hpast b hb
  fresh j := by
    refine ⟨fun b hb => hbatch b hb j, fun l hl i => hlineage l hl _,
      fun q hq i => hquote q hq _, fun i i' h => ?_, fun i i' h => ?_⟩
    · exact (Nat.pair_eq_pair.mp (letterUid_inj h).2).2
    · exact (Nat.pair_eq_pair.mp (letterUid_inj h).2).2
  disjoint j k hne := by
    refine ⟨fun h => hne (letterUid_inj h).2, fun i i' h => ?_, fun i i' h => ?_⟩
    · exact hne (Nat.pair_eq_pair.mp (letterUid_inj h).2).1
    · exact hne (Nat.pair_eq_pair.mp (letterUid_inj h).2).1
  reports capability r hr heq := hreport r hr (by
    rw [heq]
    exact congrArg List.head? (String.toList_ofList))
  healthUid_inj c c' h :=
    String.toList_inj.mp (List.tail_eq_of_cons_eq (String.ofList_inj.mp h))
  gateway instruments e h := by cases h

/-- The state after the first poll. -/
def polledOnce : ProviderState := (repeatedCalls 0).next "epoch" (.new oneMappingTables)

/-- The quote both polls are answered with. -/
def repeatedQuote (observedAt : Instant) : TdxQuote :=
  TdxRawQuote.value ⟨1, "600000", ⟨10, 0⟩, ⟨10, 0⟩, ⟨10, 0⟩, ⟨10, 0⟩, ⟨10, 0⟩, 1000, 0, ⟨1, 6⟩,
    94000⟩ oneInstrument observedAt

theorem polled_again :
    clockedProvider.polled "epoch" (repeatedPoll (minutes 101) 'b') polledOnce =
      [repeatedQuote (minutes 101)] := by
  rfl

theorem polledOnce_lineages :
    polledOnce.tables.quoteLineage.map (fun l => (l.epochUid, l.instrumentUid, l.sourceTime)) =
      [("epoch", "instrument", "0001-01-01T01:40:00.000000Z")] := by
  decide +kernel

theorem repeatedQuote_source :
    sourceKey (clockedProvider.record (repeatedQuote (minutes 101))).sourceTime (minutes 101) =
      "0001-01-01T01:40:00.000000Z" := by
  decide +kernel

/-- The second poll draws new identifiers. -/
theorem polledOnce_valid : CallValid "epoch"
    ⟨"epoch", "NATIVE_TDX", "tdx-v1", 0, none, true, false⟩ (repeatedPoll (minutes 101) 'b')
    polledOnce.tables := by
  have hbatches : polledOnce.tables.marketDataBatch.map (fun b => (b.batchUid, b.receivedAt)) =
      [(letterUid 'a' 0, minutes 100)] := by rfl
  have hlineages : polledOnce.tables.quoteLineage.map QuoteLineage.lineageUid =
      [letterUid 'a' (Nat.pair 0 0)] := by rfl
  have hquotes : polledOnce.tables.marketQuote.map MarketQuote.quoteUid =
      [letterUid 'a' (Nat.pair 0 0)] := by rfl
  have hreports : polledOnce.tables.capabilityHealthReport.map
      (fun r => r.reportUid.toList.head?) = [some 'a', some 'a'] := by decide +kernel
  have hbatch : ∀ b ∈ polledOnce.tables.marketDataBatch,
      b.batchUid = letterUid 'a' 0 ∧ b.receivedAt = minutes 100 := by
    intro b hb
    have hmem := List.mem_map_of_mem (f := fun b => (b.batchUid, b.receivedAt)) hb
    rw [hbatches, List.mem_singleton] at hmem
    exact Prod.mk.inj hmem
  refine repeatedPoll_valid rfl (by decide +kernel) (fun b hb => ?_) (fun b hb j heq => ?_)
    (fun l hl j heq => ?_) (fun q hq j heq => ?_) fun r hr heq => ?_
  · rw [(hbatch b hb).2]
    decide
  · exact absurd (letterUid_inj ((hbatch b hb).1.symm.trans heq)).1 (by decide)
  · have hmem := List.mem_map_of_mem (f := QuoteLineage.lineageUid) hl
    rw [hlineages, List.mem_singleton] at hmem
    exact absurd (letterUid_inj (hmem.symm.trans heq)).1 (by decide)
  · have hmem := List.mem_map_of_mem (f := MarketQuote.quoteUid) hq
    rw [hquotes, List.mem_singleton] at hmem
    exact absurd (letterUid_inj (hmem.symm.trans heq)).1 (by decide)
  · have hmem := List.mem_map_of_mem (f := fun r => r.reportUid.toList.head?) hr
    rw [hreports, heq] at hmem
    exact absurd hmem (by decide)

/-- The states of the two polls. -/
def repeatedState (n : ℕ) : ProviderState :=
  Nat.rec (.new oneMappingTables) (fun n s => (repeatedCalls n).next "epoch" s) n

theorem repeated_steps (n : ℕ) :
    QuoteStep "epoch" (repeatedCalls n) (repeatedState n) (repeatedState (n + 1)) := by
  refine ⟨?_, rfl⟩
  rcases n with _ | _ | n
  · refine ⟨_, repeatedPoll_valid rfl (by decide +kernel) ?_ ?_ ?_ ?_ ?_⟩
    all_goals exact fun x hx => absurd hx List.not_mem_nil
  · exact ⟨_, polledOnce_valid⟩
  · trivial

theorem repeated_start : Callable "epoch" (repeatedState 0).tables := by
  refine ⟨⟨?_, ?_, ?_, ?_, ?_, ?_, ?_⟩, ?_⟩
  all_goals exact fun x hx => absurd hx List.not_mem_nil

/-- The run of the two polls. -/
def repeatedRun : QuoteRun "epoch" where
  state := repeatedState
  event := repeatedCalls
  steps := repeated_steps
  start := repeated_start

end MarketMonitor
