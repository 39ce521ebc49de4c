import MarketMonitor.Library.Run
import MarketMonitor.MarketData.Provider

/-!
# Cumulative counters over the days

The volume and the amount of a quote count from the open of its trading day. The provider
compares them with those of the quote it remembers, from whatever day that is : over a run
of polls, a quote that is valid on its own and does not decrease the counters of its day is
accepted every time exactly when none has to be compared with a larger counter of another
day (`counters_reset_iff`).
-/

namespace MarketMonitor

open Transaction

/-! ## What a history should be -/

/-- The quote with the values of an examined raw one. -/
def Examination.quote (e : Examination) : TdxQuote := e.raw.value e.instrument e.observedAt

/-- The last accepted quote of an instrument on a trading day. -/
def lastAcceptedOn (history : List Examination) (identity : TdxIdentity) (day : Date) :
    Option TdxQuote :=
  ((history.filter fun e =>
    e.instrument.identity = identity ∧ chinaDate e.observedAt = day).filterMap
      Examination.accepted).getLast?

/-- The previous accepted quote of an instrument on the day of an examination. -/
def Examination.previous (e : Examination) (history : List Examination) : Option TdxQuote :=
  lastAcceptedOn history e.instrument.identity (chinaDate e.observedAt)

/-- How the counters of one day decide about a quote : one that is valid on its own and
decreases none is accepted, and one that decreases some is not and leaves the memory as it
was. -/
structure DecidedByItsDay (history : List Examination) (e : Examination) : Prop where
  accepts : ValidAlone e.raw e.instrument →
    (e.previous history).any e.quote.decreasesFrom = false → e.accepted.isSome
  rejects : (e.previous history).any e.quote.decreasesFrom = true →
    e.accepted = none ∧ e.rememberedAfter = e.remembered

/-- Every examination of a history is decided by its day. -/
def CountersReset (history : List Examination) : Prop :=
  ∀ before e after, history = before ++ e :: after → DecidedByItsDay before e

/-- A quote that is valid on its own and has a counter below that of a remembered quote of
another trading day. -/
def CarriedDecrease (e : Examination) : Prop :=
  ValidAlone e.raw e.instrument ∧ ∃ q, e.remembered = some q ∧
    chinaDate q.receivedAt ≠ chinaDate e.observedAt ∧ e.quote.decreasesFrom q = true

/-! ## What a history is -/

/-- An examination against a memory. -/
structure Examines (memory : TdxIdentity → Option TdxQuote) (e : Examination) : Prop where
  remembered : e.remembered = memory e.instrument.identity
  accepted : e.accepted =
    acceptedQuote (normalizeQuote e.raw e.instrument e.observedAt e.remembered)
  rememberedAfter : e.rememberedAfter = e.accepted.or e.remembered

/-- A history of examinations in the order of their times, and the memory it leaves. -/
inductive Trace : List Examination → (TdxIdentity → Option TdxQuote) → Prop
  | new : Trace [] fun _ => none
  | examined {history : List Examination} {memory : TdxIdentity → Option TdxQuote}
      {e : Examination} : Trace history memory → Examines memory e →
      (∀ x ∈ history, x.observedAt ≤ e.observedAt) →
      Trace (history ++ [e]) (remember e.instrument.identity e.accepted memory)

variable {history : List Examination} {memory : TdxIdentity → Option TdxQuote}
  {e : Examination} {identity : TdxIdentity} {day : Date}

theorem chinaDate_mono {t t' : Instant} (h : t ≤ t') : chinaDate t ≤ chinaDate t' :=
  Nat.div_le_div_right (Nat.add_le_add_right h _)

/-- A quote is accepted when it is valid on its own and decreases no remembered counter. -/
theorem Examines.accepted_eq_some_iff (h : Examines memory e) {q : TdxQuote} :
    e.accepted = some q ↔ ValidAlone e.raw e.instrument ∧
      e.remembered.any e.quote.decreasesFrom = false ∧ q = e.quote := by
  rw [h.accepted, Examination.quote, ← normalizeQuote_eq_value_iff]
  cases normalizeQuote e.raw e.instrument e.observedAt e.remembered with
  | ok quote =>
    rw [acceptedQuote]
    split
    · rename_i hvalue
      constructor
      · intro h
        cases h
        exact ⟨rfl, hvalue⟩
      · rintro ⟨h, -⟩
        cases h
        rfl
    · rename_i hvalue
      constructor
      · intro h
        cases h
      · rintro ⟨h, hvalue'⟩
        cases h
        exact absurd hvalue' hvalue
  | error record =>
    constructor
    · intro h
      cases h
    · rintro ⟨h, -⟩
      cases h

theorem Examines.accepted_isSome_iff (h : Examines memory e) :
    e.accepted.isSome ↔ ValidAlone e.raw e.instrument ∧
      e.remembered.any e.quote.decreasesFrom = false := by
  rw [Option.isSome_iff_exists]
  constructor
  · rintro ⟨q, hq⟩
    obtain ⟨hvalid, hnone, -⟩ := h.accepted_eq_some_iff.mp hq
    exact ⟨hvalid, hnone⟩
  · rintro ⟨hvalid, hnone⟩
    exact ⟨e.quote, h.accepted_eq_some_iff.mpr ⟨hvalid, hnone, rfl⟩⟩

/-- One more examination is the last of its instrument and day, when it is accepted. -/
theorem lastAcceptedOn_concat (history : List Examination) (e : Examination) :
    lastAcceptedOn (history ++ [e]) identity day =
      if e.instrument.identity = identity ∧ chinaDate e.observedAt = day then
        e.accepted.or (lastAcceptedOn history identity day)
      else lastAcceptedOn history identity day := by
  unfold lastAcceptedOn
  rw [List.filter_append, List.filterMap_append]
  by_cases h : e.instrument.identity = identity ∧ chinaDate e.observedAt = day
  · rw [if_pos h, List.filter_singleton, decide_eq_true h, List.getLast?_append]
    cases haccepted : e.accepted with
    | none => simp [haccepted]
    | some q => simp [haccepted]
  · rw [if_neg h, List.filter_singleton, decide_eq_false h]
    simp

/-- Nothing was accepted on a day without an examination. -/
theorem lastAcceptedOn_eq_none (h : ∀ x ∈ history, chinaDate x.observedAt ≠ day) :
    lastAcceptedOn history identity day = none := by
  have hempty : (history.filter fun e =>
      e.instrument.identity = identity ∧ chinaDate e.observedAt = day) = [] :=
    List.filter_eq_nil_iff.mpr fun x hx hday => h x hx (of_decide_eq_true hday).2
  rw [lastAcceptedOn, hempty]
  rfl

/-- On the last day the memory holds the last accepted quote of the day, or one of an
earlier day. -/
theorem Trace.lastAcceptedOn (h : Trace history memory)
    (hday : ∀ x ∈ history, chinaDate x.observedAt ≤ day) :
    lastAcceptedOn history identity day =
      (memory identity).filter fun q => chinaDate q.receivedAt = day := by
  induction h with
  | new => rfl
  | @examined history memory e htrace hexamines hordered ih =>
    have hbefore : ∀ x ∈ history, chinaDate x.observedAt ≤ day := fun x hx =>
      hday x (List.mem_append_left _ hx)
    have he : chinaDate e.observedAt ≤ day := hday e (List.mem_append_right _ List.mem_cons_self)
    rw [lastAcceptedOn_concat, remember, ih hbefore]
    by_cases hidentity : identity = e.instrument.identity
    swap
    · rw [if_neg fun hboth => hidentity hboth.1.symm, if_neg hidentity]
    rw [if_pos hidentity]
    cases haccepted : e.accepted with
    | none => simp
    | some q =>
      obtain ⟨-, -, rfl⟩ := hexamines.accepted_eq_some_iff.mp haccepted
      have hreceived : e.quote.receivedAt = e.observedAt := rfl
      by_cases hsame : chinaDate e.observedAt = day
      · simp [Option.filter_some, hidentity, hsame, hreceived]
      · -- The day of the quote is over, and so are the days before it.
        have hnone : MarketMonitor.lastAcceptedOn history identity day = none :=
          lastAcceptedOn_eq_none fun x hx hx' => hsame (le_antisymm he
            (hx' ▸ chinaDate_mono (hordered x hx)))
        rw [ih hbefore] at hnone
        simp [Option.filter_some, hsame, hnone, hreceived]

theorem Examines.rejects (h : Examines memory e)
    (hdecrease : e.remembered.any e.quote.decreasesFrom = true) :
    e.accepted = none ∧ e.rememberedAfter = e.remembered := by
  have hnone : e.accepted = none := by
    rw [← Option.not_isSome_iff_eq_none, h.accepted_isSome_iff]
    rintro ⟨-, hfalse⟩
    rw [hfalse] at hdecrease
    cases hdecrease
  exact ⟨hnone, by rw [h.rememberedAfter, hnone, Option.none_or]⟩

/-- An examination is decided by its day exactly when no counter of another day is in the
way. -/
theorem Trace.decidedByItsDay_iff (htrace : Trace history memory) (h : Examines memory e)
    (hordered : ∀ x ∈ history, x.observedAt ≤ e.observedAt) :
    DecidedByItsDay history e ↔ ¬CarriedDecrease e := by
  have hprevious : e.previous history = e.remembered.filter fun q =>
      chinaDate q.receivedAt = chinaDate e.observedAt := by
    rw [h.remembered]
    exact htrace.lastAcceptedOn fun x hx => chinaDate_mono (hordered x hx)
  cases hremembered : e.remembered with
  | none =>
    have hcarried : ¬CarriedDecrease e := by
      rintro ⟨-, q, hq, -⟩
      rw [hremembered] at hq
      cases hq
    refine iff_of_true ⟨fun hvalid _ => ?_, fun hdecrease => ?_⟩ hcarried
    · rw [h.accepted_isSome_iff, hremembered]
      exact ⟨hvalid, rfl⟩
    · rw [hprevious, hremembered] at hdecrease
      cases hdecrease
  | some q =>
    rw [hremembered, Option.filter_some] at hprevious
    have hany : e.remembered.any e.quote.decreasesFrom = e.quote.decreasesFrom q := by
      rw [hremembered, Option.any_some]
    by_cases hsame : chinaDate q.receivedAt = chinaDate e.observedAt
    · rw [if_pos (decide_eq_true hsame), ← hremembered] at hprevious
      have hcarried : ¬CarriedDecrease e := by
        rintro ⟨-, q', hq', hday, -⟩
        rw [hremembered] at hq'
        cases hq'
        exact hday hsame
      refine iff_of_true ⟨fun hvalid hnone => ?_, fun hdecrease => ?_⟩ hcarried
      · exact h.accepted_isSome_iff.mpr ⟨hvalid, hprevious ▸ hnone⟩
      · exact h.rejects (hprevious ▸ hdecrease)
    · rw [if_neg (by simpa using hsame)] at hprevious
      constructor
      · rintro ⟨haccepts, -⟩ ⟨hvalid, q', hq', -, hdecrease⟩
        rw [hremembered] at hq'
        cases hq'
        have hsome := haccepts hvalid (by rw [hprevious]; rfl)
        rw [h.accepted_isSome_iff, hany, hdecrease] at hsome
        cases hsome.2
      · intro hcarried
        refine ⟨fun hvalid _ => h.accepted_isSome_iff.mpr ⟨hvalid, ?_⟩, fun hdecrease => ?_⟩
        · rw [hany, ← Bool.not_eq_true]
          exact fun hdecrease => hcarried ⟨hvalid, q, hremembered, hsame, hdecrease⟩
        · rw [hprevious] at hdecrease
          cases hdecrease

/-- The counters are reset in a history exactly when it carries no decrease. -/
theorem Trace.countersReset_iff (h : Trace history memory) :
    CountersReset history ↔ ∀ e ∈ history, ¬CarriedDecrease e := by
  induction h with
  | new =>
    refine iff_of_true (fun before e after heq => ?_) fun e he => absurd he List.not_mem_nil
    exact absurd heq (by simp)
  | @examined history memory e htrace hexamines hordered ih =>
    have hlast := htrace.decidedByItsDay_iff hexamines hordered
    constructor
    · intro h x hx
      have hbefore : CountersReset history := fun before y after heq =>
        h before y (after ++ [e]) (by rw [heq, List.append_assoc, List.cons_append])
      rcases List.mem_append.mp hx with hx | hx
      · exact ih.mp hbefore x hx
      · rw [List.mem_singleton.mp hx]
        exact hlast.mp (h history e [] rfl)
    · intro h before y after heq
      rcases List.eq_nil_or_concat after with rfl | ⟨after, z, rfl⟩
      · obtain ⟨rfl, hy⟩ := List.append_inj' heq rfl
        cases hy
        exact hlast.mpr (h e (List.mem_append_right _ List.mem_cons_self))
      · rw [List.concat_eq_append, ← List.cons_append, ← List.append_assoc] at heq
        obtain ⟨rfl, -⟩ := List.append_inj' heq rfl
        exact ih.mpr (fun x hx => h x (List.mem_append_left _ hx)) before y after rfl

/-! ## The history of a provider -/

/-- The state of a provider at a time : its history is a trace that leaves its memory. -/
structure Traced (now : Instant) (s : ProviderState) : Prop where
  trace : Trace s.examined s.previousQuotes
  past : ∀ x ∈ s.examined, x.observedAt ≤ now

variable {now : Instant} {epochUid : Uid}

/-- A command on the database examines nothing. -/
theorem keeps_onTables {α : Type} (command : MarketCommand α) :
    Keeps (Traced now) (onTables command) := by
  intro s hs
  change Traced now (stateAfter (onTables command s))
  rw [onTables]
  cases command.run s.tables with
  | ok a tables => exact ⟨hs.trace, hs.past⟩
  | error e tables => exact ⟨hs.trace, hs.past⟩

/-- An examination goes on with the trace. -/
theorem keeps_examine (instrument : TdxInstrument) (raw : TdxRawQuote) :
    Keeps (Traced now) (examine epochUid now instrument raw) := by
  refine keeps_get_bind fun s hs => ?_
  have hset : Keeps (Traced now) (if acceptedQuote (normalizeQuote raw instrument now
      (s.previousQuotes instrument.identity)) = none then do
        onTables (recordQuarantine epochUid instrument.identity (quarantineReason
          (normalizeQuote raw instrument now (s.previousQuotes instrument.identity))) now)
        return acceptedQuote (normalizeQuote raw instrument now
          (s.previousQuotes instrument.identity))
      else return acceptedQuote (normalizeQuote raw instrument now
        (s.previousQuotes instrument.identity)) : ProviderCommand (Option TdxQuote)) := by
    split
    · exact (keeps_onTables _).bind fun _ => keeps_pure _
    · exact keeps_pure _
  refine hset _ ⟨hs.trace.examined ⟨rfl, rfl, ?_⟩ hs.past, fun x hx => ?_⟩
  · exact if_pos rfl
  · rcases List.mem_append.mp hx with hx | hx
    · exact hs.past x hx
    · rw [List.mem_singleton.mp hx]

theorem keeps_examineAll (rawQuotes : List TdxRawQuote) (instruments : List TdxInstrument) :
    Keeps (Traced now) (examineAll epochUid now rawQuotes instruments) := by
  induction instruments with
  | nil => exact keeps_pure _
  | cons instrument instruments ih =>
    unfold examineAll
    split
    · exact keeps_throw _
    · exact (keeps_examine instrument _).bind fun _ => ih.bind fun _ => keeps_pure _

/-- A bisection keeps the trace of what is remembered. -/
theorem keeps_acquireBatch (gateway : TdxGateway) (fuel : ℕ) (instruments : List TdxInstrument) :
    Keeps (Traced now) (acquireBatch epochUid gateway now fuel instruments) := by
  induction fuel generalizing instruments with
  | zero => exact keeps_pure _
  | succ fuel ih =>
    unfold acquireBatch
    split
    · exact (keeps_examineAll _ _).bind fun _ => keeps_pure _
    · split
      · exact keeps_throw _
      · split
        · exact (keeps_onTables _).bind fun _ => keeps_pure _
        · exact (ih _).bind fun _ => (ih _).bind fun _ => keeps_pure _

theorem keeps_acquireBatches (gateway : TdxGateway) (batches : List (List TdxInstrument)) :
    Keeps (Traced now) (acquireBatches epochUid gateway now batches) := by
  induction batches with
  | nil => exact keeps_pure _
  | cons batch batches ih =>
    exact (keeps_acquireBatch gateway _ batch).bind fun _ => ih.bind fun _ => keeps_pure _

/-- A poll goes on with the trace. -/
theorem keeps_pollOnce (p : NativeTdxProvider) (poll : Poll) :
    Keeps (Traced poll.observedAt) (p.pollOnce epochUid poll) := by
  unfold NativeTdxProvider.pollOnce
  split
  · exact keeps_throw _
  · refine keeps_get_bind fun s hs => ?_
    exact ((keeps_acquireBatches _ _).bind fun _ => (keeps_onTables _).bind fun _ =>
      (keeps_onTables _).bind fun _ => keeps_pure _) s hs

/-! ## Runs of polls -/

/-- What happens to a provider : a poll of the instruments it knows by then, or a write to
the database by any other operation. -/
inductive ProviderEvent where
  | poll (provider : NativeTdxProvider) (epochUid : Uid) (poll : Poll)
  | other (tables : MarketTables)

/-- The state after an event. -/
def ProviderEvent.next (s : ProviderState) : ProviderEvent → ProviderState
  | .poll p epochUid given => stateAfter ((p.pollOnce epochUid given).run s)
  | .other written => { s with tables := written }

/-- No poll is before the polls that came first. -/
def ProviderEvent.InTime (s : ProviderState) : ProviderEvent → Prop
  | .poll _ _ given => ∀ x ∈ s.examined, x.observedAt ≤ given.observedAt
  | .other _ => True

/-- A step of a provider. -/
def ProviderStep (e : ProviderEvent) (s s' : ProviderState) : Prop :=
  e.InTime s ∧ s' = e.next s

/-- A run of a provider from its start. -/
structure ProviderRun extends Run ProviderStep where
  tables : MarketTables
  start : state 0 = .new tables

/-- The history of a provider is a trace that leaves its memory. -/
theorem ProviderRun.trace (run : ProviderRun) (n : ℕ) :
    Trace (run.state n).examined (run.state n).previousQuotes := by
  refine run.toRun.invariant (P := fun s => Trace s.examined s.previousQuotes) ?_ ?_ n
  · rw [run.start]
    exact .new
  · rintro event s s' ⟨htime, rfl⟩ htrace
    cases event with
    | poll p epochUid given => exact (keeps_pollOnce p given s ⟨htrace, htime⟩).trace
    | other tables => exact htrace

/-- Over every run, each quote is decided by the counters of its day exactly when none that
is valid on its own has a counter below that of a remembered quote of another day. -/
theorem counters_reset_iff (run : ProviderRun) :
    (∀ n, CountersReset (run.state n).examined) ↔
      ∀ n, ∀ e ∈ (run.state n).examined, ¬CarriedDecrease e :=
  forall_congr' fun n => (run.trace n).countersReset_iff

/-! ## The first poll of a day -/

/-- A provider of one instrument. -/
def oneInstrumentProvider : NativeTdxProvider where
  parseRfc3339 _ := none
  clock := none
  thresholds := ninetyPercent
  tdxUniverse := some ⟨[oneInstrument], [], [], nodup_identities_singleton oneInstrument,
    nodup_identities_nil, nodup_identities_nil⟩

/-- A quote at a price of ten with a volume in lots. -/
def volumeQuote (volumeLots : ℤ) : TdxRawQuote :=
  ⟨1, "600000", ⟨10, 0⟩, ⟨10, 0⟩, ⟨10, 0⟩, ⟨10, 0⟩, ⟨10, 0⟩, volumeLots, 0, ⟨volumeLots, 3⟩, 0⟩

/-- A poll that is answered with a volume. -/
def volumePoll (observedAt : Instant) (volumeLots : ℤ) (uid : Uid) : Poll where
  observedAt := observedAt
  gateway _ := .ok [volumeQuote volumeLots]
  durationMs := 0
  uids _ := ⟨uid, fun _ => uid, fun _ => uid⟩
  healthUid capability := uid ++ capability

/-- A poll in the afternoon of a day, one in the morning of the next, and nothing more. -/
def twoDayEvents : ℕ → ProviderEvent
  | 0 => .poll oneInstrumentProvider "epoch" (volumePoll (minutes 420) 1000 "first")
  | 1 => .poll oneInstrumentProvider "epoch" (volumePoll (minutes 1560) 10 "second")
  | _ => .other oneMappingTables

/-- The run over the two days. -/
def twoDayRun : ProviderRun where
  state n := Nat.rec (.new oneMappingTables) (fun n s => (twoDayEvents n).next s) n
  event := twoDayEvents
  steps n := by
    refine ⟨?_, rfl⟩
    match n with
    | 0 => exact fun x hx => absurd hx List.not_mem_nil
    | 1 =>
      intro x hx
      rw [List.mem_singleton.mp hx]
      decide
    | n + 2 => trivial
  tables := oneMappingTables
  start := rfl

/-- The volume of the morning is below the one of the day before. -/
theorem next_day_quote_is_rejected :
    ¬∀ run : ProviderRun, ∀ n, CountersReset (run.state n).examined := by
  intro h
  have hlast : ∃ first last, (twoDayRun.state 2).examined = [first, last] ∧
      last.accepted = none ∧ ValidAlone last.raw last.instrument ∧
      last.previous [first] = none :=
    ⟨_, _, rfl, by decide, by decide, by decide⟩
  obtain ⟨first, last, hexamined, hnone, hvalid, hprevious⟩ := hlast
  have hdecided := h twoDayRun 2 [first] last [] hexamined
  have hsome := hdecided.accepts hvalid (by rw [hprevious]; rfl)
  rw [hnone] at hsome
  cases hsome

end MarketMonitor
