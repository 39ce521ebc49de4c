import MarketMonitor.Analysis.ProductionWorker
import Mathlib.Order.Bounds.Basic

/-!
# The ticks of a worker

Over ticks at instants that do not decrease, the minutes handed to the runner increase, each
is the latest complete minute of its tick, and a minute is handed over when some tick is due
for it (`handed_minutes`).
-/

namespace MarketMonitor

/-! ## Complete minutes -/

/-- A right edge of a minute of a session. -/
def TradingSession.HasMinute (s : TradingSession) (m : Instant) : Prop :=
  s.opensAt < m ∧ m ≤ s.closesAt ∧ minutes 1 ∣ m

/-- The right edges up to an instant. -/
def completedMinutes (sessions : List TradingSession) (t : Instant) : Set Instant :=
  {m | (∃ s ∈ sessions, s.HasMinute m) ∧ m ≤ t}

/-- The right edges of the minutes of a calendar. -/
def TradingCalendar.LegalMinute (calendar : TradingCalendar) (m : Instant) : Prop :=
  ∃ date, ∃ s ∈ calendar.continuousSessions date, s.HasMinute m

/-- Days whose continuous sessions are sorted, separated by gaps, of whole minutes and between
08:00 and 24:00 in the market's zone. -/
structure ContinuousDays (calendar : TradingCalendar) : Prop where
  opens_lt : ∀ date, ∀ s ∈ calendar.continuousSessions date, s.opensAt < s.closesAt
  sorted : ∀ date, (calendar.continuousSessions date).Pairwise fun s s' => s.closesAt < s'.opensAt
  wholeMinutes : ∀ date, ∀ s ∈ calendar.continuousSessions date,
    minutes 1 ∣ s.opensAt ∧ minutes 1 ∣ s.closesAt
  inDay : ∀ date, ∀ s ∈ calendar.continuousSessions date,
    date * microsPerDay + minutes 480 ≤ s.opensAt + chinaOffset ∧
      s.closesAt + chinaOffset ≤ (date + 1) * microsPerDay

section

variable {sessions : List TradingSession} {s : TradingSession} {t m : Instant}

theorem completedMinutes_cons (h : ∀ m, s.HasMinute m → ¬m ≤ t) :
    completedMinutes (s :: sessions) t = completedMinutes sessions t := by
  ext m
  constructor
  · rintro ⟨⟨s', hs', hm⟩, hle⟩
    rcases List.mem_cons.mp hs' with rfl | hs'
    · exact absurd hle (h m hm)
    · exact ⟨⟨s', hs', hm⟩, hle⟩
  · rintro ⟨⟨s', hs', hm⟩, hle⟩
    exact ⟨⟨s', List.mem_cons_of_mem _ hs', hm⟩, hle⟩

/-- The loop ends with the last of the complete minutes, if there is one. -/
theorem latestLegalMinute_spec (candidate : Option Instant)
    (hopens : ∀ s ∈ sessions, s.opensAt < s.closesAt)
    (hsorted : sessions.Pairwise fun s s' => s.closesAt < s'.opensAt)
    (hwhole : ∀ s ∈ sessions, minutes 1 ∣ s.opensAt ∧ minutes 1 ∣ s.closesAt) :
    (∃ m, latestLegalMinute t sessions candidate = some m ∧
      IsGreatest (completedMinutes sessions t) m) ∨
    completedMinutes sessions t = ∅ ∧ latestLegalMinute t sessions candidate = candidate := by
  induction sessions generalizing candidate with
  | nil =>
    refine Or.inr ⟨Set.eq_empty_iff_forall_notMem.mpr ?_, rfl⟩
    rintro m ⟨⟨s, hs, -⟩, -⟩
    exact absurd hs List.not_mem_nil
  | cons s sessions ih =>
    have hs := hopens s List.mem_cons_self
    obtain ⟨hgap, hsorted⟩ := List.pairwise_cons.mp hsorted
    have hrest := fun candidate => ih candidate
      (fun s' hs' => hopens s' (List.mem_cons_of_mem _ hs')) hsorted
      fun s' hs' => hwhole s' (List.mem_cons_of_mem _ hs')
    -- The minutes of the later sessions come after the close.
    have hlater : ∀ {m}, (∃ s' ∈ sessions, s'.HasMinute m) → s.closesAt < m := by
      rintro m ⟨s', hs', hm⟩
      exact (hgap s' hs').trans hm.1
    rw [latestLegalMinute]
    dsimp only
    by_cases hbefore : min t s.closesAt ≤ s.opensAt
    · have ht : t ≤ s.opensAt := (min_le_iff.mp hbefore).resolve_right (not_le.mpr hs)
      rw [if_pos hbefore, completedMinutes_cons fun m hm hle =>
        absurd (hm.1.trans_le (hle.trans ht)) (lt_irrefl _)]
      exact hrest candidate
    rw [if_neg hbefore]
    by_cases ht : t < s.closesAt
    · rw [min_eq_left ht.le, if_pos ht]
      by_cases hfloor : s.opensAt < minuteFloor t
      · have hle : minuteFloor t ≤ s.closesAt := (minuteFloor_le t).trans ht.le
        refine Or.inl ⟨minuteFloor t, if_pos ⟨hfloor, hle⟩,
          ⟨⟨s, List.mem_cons_self, hfloor, hle, dvd_minuteFloor t⟩, minuteFloor_le t⟩, ?_⟩
        rintro m ⟨⟨s', hs', hm⟩, hmt⟩
        exact le_minuteFloor hm.2.2 hmt
      · refine Or.inr ⟨Set.eq_empty_iff_forall_notMem.mpr ?_, if_neg fun h => hfloor h.1⟩
        rintro m ⟨⟨s', hs', hm⟩, hmt⟩
        rcases List.mem_cons.mp hs' with rfl | hs'
        · exact hfloor (hm.1.trans_le (le_minuteFloor hm.2.2 hmt))
        · exact absurd (ht.trans (hlater ⟨s', hs', hm⟩)) (not_lt.mpr hmt)
    · have ht' : s.closesAt ≤ t := not_lt.mp ht
      have hclose := (hwhole s List.mem_cons_self).2
      have hfloor : minuteFloor s.closesAt = s.closesAt :=
        minuteFloor_eq hclose le_rfl (Nat.lt_add_of_pos_right minutes_one_pos)
      have hmem : s.closesAt ∈ completedMinutes (s :: sessions) t :=
        ⟨⟨s, List.mem_cons_self, hs, le_rfl, hclose⟩, ht'⟩
      rw [min_eq_right ht', if_neg ht, hfloor, if_pos ⟨hs, le_rfl⟩]
      rcases hrest (some s.closesAt) with ⟨m, hm, ⟨hlegal, hmt⟩, hmax⟩ | ⟨hempty, hresult⟩
      · obtain ⟨s', hs', hminute⟩ := hlegal
        refine Or.inl ⟨m, hm, ⟨⟨s', List.mem_cons_of_mem _ hs', hminute⟩, hmt⟩, ?_⟩
        rintro m' ⟨⟨s'', hs'', hm'⟩, hmt'⟩
        rcases List.mem_cons.mp hs'' with rfl | hs''
        · exact hm'.2.1.trans (hlater ⟨s', hs', hminute⟩).le
        · exact hmax ⟨⟨s'', hs'', hm'⟩, hmt'⟩
      · refine Or.inl ⟨s.closesAt, hresult, hmem, ?_⟩
        rintro m' ⟨⟨s'', hs'', hm'⟩, hmt'⟩
        rcases List.mem_cons.mp hs'' with rfl | hs''
        · exact hm'.2.1
        · exact absurd ⟨⟨s'', hs'', hm'⟩, hmt'⟩ (Set.eq_empty_iff_forall_notMem.mp hempty m')

end

namespace TradingCalendar

variable {calendar : TradingCalendar} {date : Date} {s s' : TradingSession} {t m : Instant}

/-- The latest of the minutes that have been completed. -/
theorem latestCompletedLegalMinute_eq_some_iff (h : ContinuousDays calendar) :
    calendar.latestCompletedLegalMinute t = some m ↔
      IsGreatest (completedMinutes (calendar.continuousSessions (chinaDate t)) t) m := by
  rw [latestCompletedLegalMinute]
  rcases latestLegalMinute_spec (t := t) none (h.opens_lt _) (h.sorted _) (h.wholeMinutes _) with
    ⟨m', hm', hgreatest⟩ | ⟨hempty, hnone⟩
  · rw [hm', Option.some.injEq]
    constructor
    · rintro rfl
      exact hgreatest
    · exact hgreatest.unique
  · rw [hnone, hempty]
    constructor
    · rintro ⟨⟩
    · exact fun hm => absurd hm.1 (Set.notMem_empty m)

theorem covers_iff : s.covers t = true ↔ s.opensAt ≤ t ∧ t < s.closesAt :=
  decide_eq_true_iff

/-- Two continuous sessions of a day are apart. -/
theorem apart (h : ContinuousDays calendar) (hs : s ∈ calendar.continuousSessions date)
    (hs' : s' ∈ calendar.continuousSessions date) :
    s = s' ∨ s.closesAt < s'.opensAt ∨ s'.closesAt < s.opensAt := by
  exact List.Pairwise.forall_of_forall_of_flip
    (R := fun s s' => s = s' ∨ s.closesAt < s'.opensAt ∨ s'.closesAt < s.opensAt)
    (fun _ _ => Or.inl rfl) ((h.sorted date).imp fun hgap => Or.inr (Or.inl hgap))
    ((h.sorted date).imp fun hgap => Or.inr (Or.inr hgap)) hs hs'

/-- One continuous session covers an instant. -/
theorem eq_of_covers (h : ContinuousDays calendar) (hs : s ∈ calendar.continuousSessions date)
    (hs' : s' ∈ calendar.continuousSessions date) (ht : s.covers t) (ht' : s'.covers t) :
    s = s' := by
  obtain ⟨hopens, hcloses⟩ := covers_iff.mp ht
  obtain ⟨hopens', hcloses'⟩ := covers_iff.mp ht'
  rcases apart h hs hs' with heq | hgap | hgap
  · exact heq
  · exact absurd hopens' (not_le.mpr (hcloses.trans hgap))
  · exact absurd hopens (not_le.mpr (hcloses'.trans hgap))

/-- The day of an instant of a session, in the market's zone. -/
theorem chinaDate_eq (h : ContinuousDays calendar) (hs : s ∈ calendar.continuousSessions date)
    (hopens : s.opensAt ≤ t) (hcloses : t < s.closesAt) : chinaDate t = date := by
  obtain ⟨hfrom, hto⟩ := h.inDay date s hs
  refine Nat.div_eq_of_lt_le ?_ ?_
  · exact (Nat.le_add_right _ _).trans (hfrom.trans (Nat.add_le_add_right hopens _))
  · exact (Nat.add_lt_add_right hcloses _).trans_le hto

/-- Within a session the last minute begun is handed over. -/
theorem latestCompletedContinuousMinute_eq_some_iff (h : ContinuousDays calendar) :
    calendar.latestCompletedContinuousMinute t = some m ↔
      ∃ s ∈ calendar.continuousSessions (chinaDate t), s.covers t ∧ s.opensAt < m ∧
        m = minuteFloor t := by
  unfold latestCompletedContinuousMinute continuousSessionAt
  simp only [Option.bind_eq_bind, Option.bind_eq_some_iff]
  constructor
  · rintro ⟨s, hfind, hm⟩
    split at hm
    · cases hm
    · rename_i hnot
      cases hm
      exact ⟨s, List.mem_of_find?_eq_some hfind,
        List.find?_some (p := fun s : TradingSession => s.covers t) hfind,
        not_le.mp fun hle => hnot (Or.inl hle), rfl⟩
  · rintro ⟨s, hs, hcovers, hopens, rfl⟩
    have hsome : ((calendar.continuousSessions (chinaDate t)).find? fun s => s.covers t).isSome :=
      List.find?_isSome.mpr ⟨s, hs, hcovers⟩
    obtain ⟨s', hfind⟩ := Option.isSome_iff_exists.mp hsome
    cases eq_of_covers h hs (List.mem_of_find?_eq_some hfind) hcovers
      (List.find?_some (p := fun s : TradingSession => s.covers t) hfind)
    refine ⟨s, hfind, if_neg ?_⟩
    rintro (hle | hlt)
    · exact absurd hopens (not_lt.mpr hle)
    · exact absurd (hlt.trans_le (minuteFloor_le t)) (not_lt.mpr (covers_iff.mp hcovers).2.le)

/-- A continuous phase is that of a session that covers the instant. -/
theorem exists_of_phaseAt (h : calendar.phaseAt t ∈ continuousSessionPhases) :
    ∃ s ∈ calendar.continuousSessions (utcDate t), s.covers t := by
  unfold phaseAt at h
  split at h
  · exact absurd h (by decide)
  · exact absurd h (by decide)
  · rename_i first rest hsessions
    split at h
    · rename_i s hfind
      refine ⟨s, List.mem_filter.mpr ⟨?_, decide_eq_true h⟩,
        List.find?_some (p := fun s : TradingSession => s.covers t) hfind⟩
      rw [hsessions]
      exact List.mem_of_find?_eq_some hfind
    · split at h
      · exact absurd h (by decide)
      · split at h
        · exact absurd h (by decide)
        · exact absurd h (by decide)

/-- No continuous phase is in force within a minute of a close. -/
theorem phaseAt_close (h : ContinuousDays calendar) (hs : s ∈ calendar.continuousSessions date)
    (hdate : chinaDate t = date) (hle : s.closesAt ≤ t) (hlt : t < s.closesAt + minutes 1) :
    calendar.phaseAt t ∉ continuousSessionPhases := by
  intro hphase
  obtain ⟨s', hs', hcovers⟩ := exists_of_phaseAt hphase
  obtain ⟨hopens, hcloses⟩ := covers_iff.mp hcovers
  have hsame : utcDate t = date := (chinaDate_eq h hs' hopens hcloses).symm.trans hdate
  rw [hsame] at hs'
  rcases apart h hs hs' with rfl | hgap | hgap
  · exact absurd hcloses (not_lt.mpr hle)
  · have hfloor : minuteFloor t = s.closesAt := minuteFloor_eq (h.wholeMinutes _ s hs).2 hle hlt
    have hnext := le_minuteFloor (h.wholeMinutes _ s' hs').1 hopens
    exact absurd hgap (not_lt.mpr (hnext.trans_eq hfloor))
  · exact absurd (hcloses.trans (hgap.trans (h.opens_lt _ s hs))) (not_lt.mpr hle)

end TradingCalendar

/-! ## Targets -/

namespace ContinuousProductionWorker

variable {ρ : Type} {w : ContinuousProductionWorker ρ} {calendar : TradingCalendar}
  {t m : Instant}

/-- The tick at `t` is due for the right edge `m` : it is in the minute after it, and either
before the close of the session, in a continuous phase or within the grace period, or within
the grace period after the close, on the same day. -/
def Due (w : ContinuousProductionWorker ρ) (calendar : TradingCalendar) (t m : Instant) : Prop :=
  ∃ date, ∃ s ∈ calendar.continuousSessions date, s.HasMinute m ∧ m ≤ t ∧ t < m + minutes 1 ∧
    (t < s.closesAt ∧ (calendar.phaseAt t ∈ continuousSessionPhases ∨ t ≤ m + w.closeGrace) ∨
      m = s.closesAt ∧ t ≤ m + w.closeGrace ∧ chinaDate t = date)

variable (hsse : w.clock "SSE" = calendar) (hszse : w.clock "SZSE" = calendar)

include hsse hszse

theorem target_of_continuous (h : calendar.phaseAt t ∈ continuousSessionPhases) :
    (w.target t).1 = calendar.latestCompletedContinuousMinute t := by
  unfold target
  rw [hsse, hszse]
  dsimp only
  rw [if_neg (fun hne => hne rfl), if_pos h]
  cases calendar.latestCompletedContinuousMinute t with
  | none => rfl
  | some minute => exact congrArg Prod.fst (if_neg fun hne => hne rfl)

/-- Outside of the sessions the last minute is handed over in its grace period. -/
theorem target_of_not_continuous (h : calendar.phaseAt t ∉ continuousSessionPhases) :
    (w.target t).1 = some m ↔ calendar.latestCompletedLegalMinute t = some m ∧
      t - m ≤ w.closeGrace ∧ minuteFloor t = m := by
  unfold target
  rw [hsse, hszse]
  dsimp only
  rw [if_neg (fun hne => hne rfl), if_neg h]
  cases calendar.latestCompletedLegalMinute t with
  | none => simp
  | some minute =>
    dsimp only
    rw [if_neg (fun hne => hne rfl), Option.some.injEq]
    split_ifs with hgrace hfloor
    · refine ⟨fun hfalse => absurd hfalse (by simp), ?_⟩
      rintro ⟨rfl, hle, -⟩
      exact absurd hgrace (not_lt.mpr hle)
    · refine ⟨fun hfalse => absurd hfalse (by simp), ?_⟩
      rintro ⟨rfl, -, heq⟩
      exact absurd heq hfloor
    · rw [Option.some.injEq]
      constructor
      · rintro rfl
        exact ⟨rfl, not_lt.mp hgrace, not_not.mp hfloor⟩
      · exact fun h => h.1

/-- A tick finds the minute it is due for. -/
theorem target_eq_some_iff (hdays : ContinuousDays calendar) :
    (w.target t).1 = some m ↔ w.Due calendar t m := by
  by_cases hphase : calendar.phaseAt t ∈ continuousSessionPhases
  · rw [target_of_continuous hsse hszse hphase,
      TradingCalendar.latestCompletedContinuousMinute_eq_some_iff hdays]
    constructor
    · rintro ⟨s, hs, hcovers, hopens, rfl⟩
      have hlt := (TradingCalendar.covers_iff.mp hcovers).2
      exact ⟨_, s, hs, ⟨hopens, (minuteFloor_le t).trans hlt.le, dvd_minuteFloor t⟩,
        minuteFloor_le t, lt_minuteFloor_add t, Or.inl ⟨hlt, Or.inl hphase⟩⟩
    · rintro ⟨date, s, hs, hminute, hle, hlt, ⟨hcloses, -⟩ | ⟨rfl, -, hdate⟩⟩
      · have hopens : s.opensAt ≤ t := hminute.1.le.trans hle
        cases TradingCalendar.chinaDate_eq hdays hs hopens hcloses
        exact ⟨s, hs, TradingCalendar.covers_iff.mpr ⟨hopens, hcloses⟩, hminute.1,
          (minuteFloor_eq hminute.2.2 hle hlt).symm⟩
      · exact absurd hphase (TradingCalendar.phaseAt_close hdays hs hdate hle hlt)
  · rw [target_of_not_continuous hsse hszse hphase,
      TradingCalendar.latestCompletedLegalMinute_eq_some_iff hdays]
    constructor
    · rintro ⟨⟨⟨⟨s, hs, hminute⟩, hle⟩, -⟩, hgrace, hfloor⟩
      have hwithin : t ≤ m + w.closeGrace := Nat.sub_le_iff_le_add'.mp hgrace
      have hlt : t < m + minutes 1 := hfloor ▸ lt_minuteFloor_add t
      refine ⟨_, s, hs, hminute, hle, hlt, ?_⟩
      by_cases hcloses : t < s.closesAt
      · exact Or.inl ⟨hcloses, Or.inr hwithin⟩
      · have hedge : s.closesAt ≤ m :=
          hfloor ▸ le_minuteFloor (hdays.wholeMinutes _ s hs).2 (not_lt.mp hcloses)
        exact Or.inr ⟨le_antisymm hminute.2.1 hedge, hwithin, rfl⟩
    · rintro ⟨date, s, hs, hminute, hle, hlt, hwhen⟩
      have hfloor : minuteFloor t = m := minuteFloor_eq hminute.2.2 hle hlt
      have hday : chinaDate t = date ∧ t ≤ m + w.closeGrace := by
        rcases hwhen with ⟨hcloses, hgrace⟩ | ⟨-, hgrace, hdate⟩
        · exact ⟨TradingCalendar.chinaDate_eq hdays hs (hminute.1.le.trans hle) hcloses,
            hgrace.resolve_left hphase⟩
        · exact ⟨hdate, hgrace⟩
      refine ⟨⟨⟨⟨s, hday.1 ▸ hs, hminute⟩, hle⟩, ?_⟩, Nat.sub_le_iff_le_add'.mpr hday.2, hfloor⟩
      rintro m' ⟨⟨s', -, hminute'⟩, hle'⟩
      exact hfloor ▸ le_minuteFloor hminute'.2.2 hle'

end ContinuousProductionWorker

/-! ## Runs of ticks -/

/-- A worker that runs no cycle and remembers the key of the last minute. -/
structure WorkerState.Remembers (s : WorkerState) (last : Option Instant) : Prop where
  key : s.lastCycleKey = last.map cycleKey
  idle : s.cycleLock = false

theorem WorkerState.remembers_new : WorkerState.new.Remembers none := ⟨rfl, rfl⟩

/-- What the runner gets from ticks after the minute `last`. -/
structure Handed {ρ : Type} (w : ContinuousProductionWorker ρ) (last : Option Instant)
    (instants : List Instant) (handed : List (Instant × Instant)) (keys : List String) : Prop where
  due : ∀ p ∈ handed, p.1 ∈ instants ∧ (w.target p.1).1 = some p.2
  after : ∀ p ∈ handed, ∀ m ∈ last, m < p.2
  increasing : (handed.map Prod.snd).Pairwise (· < ·)
  complete : ∀ t ∈ instants, ∀ m, (w.target t).1 = some m → m ∈ last ∨ ∃ t', (t', m) ∈ handed
  keys_eq : keys = handed.map fun p => cycleKey p.2

namespace ContinuousProductionWorker

variable {ρ : Type} {w : ContinuousProductionWorker ρ} {s : WorkerState} {t : Instant}

/-- A tick of an idle worker hands no minute over, since it finds none or the last one, or
hands the one over that it finds. -/
theorem tick_cases (w : ContinuousProductionWorker ρ) (hrun : w.runCycle.isSome)
    (hidle : s.cycleLock = false) (t : Instant) :
    (∃ r, w.tick s t = (r, s) ∧ r.started = false ∧
      ∀ m, (w.target t).1 = some m → s.lastCycleKey = some (cycleKey m)) ∨
    ∃ r m, w.tick s t = (r, { s with lastCycleKey := some (cycleKey m) }) ∧ r.started = true ∧
      r.targetMinute = some m ∧ r.cycleKey = some (cycleKey m) ∧ (w.target t).1 = some m ∧
      s.lastCycleKey ≠ some (cycleKey m) := by
  unfold tick
  cases htarget : w.target t with
  | mk found reason =>
    cases found with
    | none => exact Or.inl ⟨_, rfl, rfl, fun m hm => by cases hm⟩
    | some minute =>
      dsimp only
      by_cases hkey : s.lastCycleKey = some (cycleKey minute)
      · refine Or.inl ⟨_, if_pos hkey, rfl, fun m hm => ?_⟩
        cases hm
        exact hkey
      · obtain ⟨run, hrun⟩ := Option.isSome_iff_exists.mp hrun
        rw [if_neg hkey, hidle, hrun, if_neg Bool.false_ne_true]
        dsimp only
        cases run (cycleKey minute) t with
        | error e => exact Or.inr ⟨_, minute, rfl, rfl, rfl, rfl, rfl, hkey⟩
        | ok result => exact Or.inr ⟨_, minute, rfl, rfl, rfl, rfl, rfl, hkey⟩

/-- A tick that starts nothing hands nothing over. -/
theorem handed_cons_of_not_started {r : WorkerTick ρ} {s' : WorkerState}
    (h : w.tick s t = (r, s')) (hr : r.started = false) (rest : List Instant) :
    w.handed s (t :: rest) = w.handed s' rest ∧
      w.startedKeys s (t :: rest) = w.startedKeys s' rest := by
  have hhanded : r.handed? = none := by rw [WorkerTick.handed?, hr]; rfl
  have hkey : r.startedKey? = none := by rw [WorkerTick.startedKey?, hr]; rfl
  unfold handed startedKeys
  rw [ticks, h]
  dsimp only
  rw [List.filterMap_cons, List.filterMap_cons]
  dsimp only
  rw [hhanded, hkey]
  exact ⟨rfl, rfl⟩

/-- A tick that starts a cycle hands its minute over. -/
theorem handed_cons_of_started {r : WorkerTick ρ} {s' : WorkerState} {m : Instant}
    {key : String} (h : w.tick s t = (r, s')) (hr : r.started = true)
    (hm : r.targetMinute = some m) (hkey : r.cycleKey = some key) (rest : List Instant) :
    w.handed s (t :: rest) = (t, m) :: w.handed s' rest ∧
      w.startedKeys s (t :: rest) = key :: w.startedKeys s' rest := by
  have hhanded : r.handed? = some m := by rw [WorkerTick.handed?, hr, hm]; rfl
  have hkey : r.startedKey? = some key := by rw [WorkerTick.startedKey?, hr, hkey]; rfl
  unfold handed startedKeys
  rw [ticks, h]
  dsimp only
  rw [List.filterMap_cons, List.filterMap_cons]
  dsimp only
  rw [hhanded, hkey]
  exact ⟨rfl, rfl⟩

/-- What is handed over by ticks at instants that do not decrease, after a minute that is not
after the first. -/
theorem handed_spec (hrun : w.runCycle.isSome)
    (htarget : ∀ t m, (w.target t).1 = some m → m = minuteFloor t) {instants : List Instant}
    (hsorted : instants.Pairwise (· ≤ ·))
    (hrange : ∀ t ∈ instants, t + chinaOffset < maxInstant) {last : Option Instant}
    (hs : s.Remembers last) (hlast : ∀ m ∈ last, minutes 1 ∣ m ∧ m + chinaOffset < maxInstant ∧
      ∀ t ∈ instants, m ≤ minuteFloor t) :
    Handed w last instants (w.handed s instants) (w.startedKeys s instants) := by
  induction instants generalizing s last with
  | nil =>
    exact ⟨fun p hp => absurd hp List.not_mem_nil, fun p hp => absurd hp List.not_mem_nil,
      List.Pairwise.nil, fun t ht => absurd ht List.not_mem_nil, rfl⟩
  | cons t rest ih =>
    obtain ⟨hfirst, hsorted⟩ := List.pairwise_cons.mp hsorted
    have ih := fun {s last} =>
      @ih s hsorted (fun t ht => hrange t (List.mem_cons_of_mem _ ht)) last
    -- A minute of this tick whose key is remembered is the last one.
    have hsame : ∀ m, (w.target t).1 = some m → s.lastCycleKey = some (cycleKey m) → m ∈ last := by
      intro m hm hkey
      rw [hs.key] at hkey
      obtain ⟨m', hm', hkey⟩ := Option.map_eq_some_iff.mp hkey
      obtain ⟨hdvd, hmax, -⟩ := hlast m' hm'
      have hfloor := htarget t m hm
      have hle : m ≤ t := hfloor ▸ minuteFloor_le t
      have hmax' : m + chinaOffset < maxInstant :=
        (Nat.add_le_add_right hle _).trans_lt (hrange t List.mem_cons_self)
      cases cycleKey_inj hdvd (hfloor ▸ dvd_minuteFloor t) hmax hmax' hkey
      exact hm'
    rcases tick_cases w hrun hs.idle t with ⟨r, htick, hr, hkey⟩ |
      ⟨r, m, htick, hr, hminute, hcycle, hm, hkey⟩
    · obtain ⟨hhanded, hkeys⟩ := handed_cons_of_not_started htick hr rest
      rw [hhanded, hkeys]
      obtain ⟨hdue, hafter, hincreasing, hcomplete, hkeys⟩ := ih hs fun m hm =>
        ⟨(hlast m hm).1, (hlast m hm).2.1,
          fun t ht => (hlast m hm).2.2 t (List.mem_cons_of_mem _ ht)⟩
      refine ⟨fun p hp => ⟨List.mem_cons_of_mem _ (hdue p hp).1, (hdue p hp).2⟩, hafter,
        hincreasing, fun t' ht' m hm => ?_, hkeys⟩
      rcases List.mem_cons.mp ht' with rfl | ht'
      · exact Or.inl (hsame m hm (hkey m hm))
      · exact hcomplete t' ht' m hm
    · obtain ⟨hhanded, hkeys⟩ := handed_cons_of_started htick hr hminute hcycle rest
      rw [hhanded, hkeys]
      have hfloor := htarget t m hm
      have hle : m ≤ t := hfloor ▸ minuteFloor_le t
      have hbefore : ∀ t' ∈ rest, m ≤ minuteFloor t' := fun t' ht' =>
        le_minuteFloor (hfloor ▸ dvd_minuteFloor t) (hle.trans (hfirst t' ht'))
      obtain ⟨hdue, hafter, hincreasing, hcomplete, hkeys⟩ := @ih
        { s with lastCycleKey := some (cycleKey m) } (some m) ⟨rfl, hs.idle⟩ (by
          rintro m' ⟨⟩
          exact ⟨hfloor ▸ dvd_minuteFloor t,
            (Nat.add_le_add_right hle _).trans_lt (hrange t List.mem_cons_self), hbefore⟩)
      have hlt : ∀ m' ∈ last, m' < m := by
        intro m' hm'
        refine lt_of_le_of_ne (hfloor ▸ (hlast m' hm').2.2 t List.mem_cons_self) ?_
        rintro rfl
        exact hkey (by rw [hs.key, Option.mem_def.mp hm']; rfl)
      refine ⟨?_, ?_, ?_, ?_, ?_⟩
      · intro p hp
        rcases List.mem_cons.mp hp with rfl | hp
        · exact ⟨List.mem_cons_self, hm⟩
        · exact ⟨List.mem_cons_of_mem _ (hdue p hp).1, (hdue p hp).2⟩
      · intro p hp m' hm'
        rcases List.mem_cons.mp hp with rfl | hp
        · exact hlt m' hm'
        · exact (hlt m' hm').trans (hafter p hp m rfl)
      · refine List.pairwise_cons.mpr ⟨fun m' hm' => ?_, hincreasing⟩
        obtain ⟨p, hp, rfl⟩ := List.mem_map.mp hm'
        exact hafter p hp m rfl
      · intro t' ht' m' hm'
        rcases List.mem_cons.mp ht' with rfl | ht'
        · cases hm.symm.trans hm'
          exact Or.inr ⟨t', List.mem_cons_self⟩
        · rcases hcomplete t' ht' m' hm' with heq | ⟨t'', hmem⟩
          · cases heq
            exact Or.inr ⟨t, List.mem_cons_self⟩
          · exact Or.inr ⟨t'', List.mem_cons_of_mem _ hmem⟩
      · rw [hkeys]
        rfl

end ContinuousProductionWorker

/-- Over ticks at instants that do not decrease, the minutes handed over increase, no key is
started twice, every minute is the latest complete one of its tick, and the minutes handed
over are those that some tick is due for. -/
theorem handed_minutes {ρ : Type} (w : ContinuousProductionWorker ρ) (hrun : w.runCycle.isSome)
    {calendar : TradingCalendar} (hsse : w.clock "SSE" = calendar)
    (hszse : w.clock "SZSE" = calendar) (hdays : ContinuousDays calendar)
    {instants : List Instant} (hsorted : instants.Pairwise (· ≤ ·))
    (hrange : ∀ t ∈ instants, t + chinaOffset < maxInstant) :
    ((w.handed .new instants).map Prod.snd).Pairwise (· < ·) ∧
      (w.startedKeys .new instants).Nodup ∧
      (∀ p ∈ w.handed .new instants, IsGreatest {m | calendar.LegalMinute m ∧ m ≤ p.1} p.2) ∧
      ∀ m, (∃ t, (t, m) ∈ w.handed .new instants) ↔ ∃ t ∈ instants, w.Due calendar t m := by
  have htarget : ∀ t m, (w.target t).1 = some m ↔ w.Due calendar t m :=
    fun t m => ContinuousProductionWorker.target_eq_some_iff hsse hszse hdays
  have hfloor : ∀ t m, (w.target t).1 = some m → m = minuteFloor t := by
    intro t m hm
    obtain ⟨date, s, -, hminute, hle, hlt, -⟩ := (htarget t m).mp hm
    exact (minuteFloor_eq hminute.2.2 hle hlt).symm
  obtain ⟨hdue, -, hincreasing, hcomplete, hkeys⟩ := ContinuousProductionWorker.handed_spec hrun
    hfloor hsorted hrange WorkerState.remembers_new fun m hm => by cases hm
  have hkey : ∀ p ∈ w.handed .new instants,
      minutes 1 ∣ p.2 ∧ p.2 + chinaOffset < maxInstant := by
    intro p hp
    obtain ⟨hmem, hm⟩ := hdue p hp
    rw [hfloor _ _ hm]
    exact ⟨dvd_minuteFloor _, (Nat.add_le_add_right (minuteFloor_le _) _).trans_lt (hrange _ hmem)⟩
  refine ⟨hincreasing, ?_, fun p hp => ?_, fun m => ⟨?_, ?_⟩⟩
  · rw [hkeys]
    refine List.pairwise_map.mpr ((List.pairwise_map.mp hincreasing).imp_of_mem ?_)
    intro p p' hp hp' hlt heq
    exact hlt.ne (cycleKey_inj (hkey p hp).1 (hkey p' hp').1 (hkey p hp).2 (hkey p' hp').2 heq)
  · obtain ⟨date, s, hs, hminute, hle, -, -⟩ := (htarget _ _).mp (hdue p hp).2
    refine ⟨⟨⟨date, s, hs, hminute⟩, hle⟩, ?_⟩
    rintro m ⟨⟨date', s', -, hminute'⟩, hle'⟩
    exact hfloor _ _ (hdue p hp).2 ▸ le_minuteFloor hminute'.2.2 hle'
  · rintro ⟨t, hmem⟩
    exact ⟨t, (hdue _ hmem).1, (htarget t m).mp (hdue _ hmem).2⟩
  · rintro ⟨t, ht, hm⟩
    exact (hcomplete t ht m ((htarget t m).mpr hm)).resolve_left (by rintro ⟨⟩)

/-! ## Minutes that are passed over -/

/-- A calendar of one day. -/
def oneDay (sessions : List TradingSession) : TradingCalendar :=
  fun date => if date = 0 then some sessions else none

/-- A worker with two seconds of grace. -/
def graceWorker (calendar : TradingCalendar) : ContinuousProductionWorker Unit :=
  ⟨fun _ => calendar, some fun _ _ => .ok (), 2 * microsPerSecond, by decide⟩

/-- A continuous session on its day. -/
theorem continuousDays_oneDay {sessions : List TradingSession} {s : TradingSession}
    (hsessions : (sessions.filter fun s => s.phase ∈ continuousSessionPhases) = [s])
    (hopens : s.opensAt < s.closesAt) (hwhole : minutes 1 ∣ s.opensAt ∧ minutes 1 ∣ s.closesAt)
    (hday : minutes 480 ≤ s.opensAt + chinaOffset ∧ s.closesAt + chinaOffset ≤ microsPerDay) :
    ContinuousDays (oneDay sessions) := by
  have hmem : ∀ date, ∀ s' ∈ (oneDay sessions).continuousSessions date, date = 0 ∧ s' = s := by
    intro date s' hs'
    unfold TradingCalendar.continuousSessions oneDay at hs'
    by_cases hdate : date = 0
    · rw [if_pos hdate, Option.getD_some, hsessions] at hs'
      exact ⟨hdate, List.mem_singleton.mp hs'⟩
    · rw [if_neg hdate] at hs'
      cases hs'
  refine ⟨fun date s' hs' => ?_, fun date => ?_, fun date s' hs' => ?_, fun date s' hs' => ?_⟩
  · rw [(hmem date s' hs').2]
    exact hopens
  · unfold TradingCalendar.continuousSessions oneDay
    by_cases hdate : date = 0
    · rw [if_pos hdate, Option.getD_some, hsessions]
      exact List.pairwise_singleton _ _
    · rw [if_neg hdate]
      exact List.Pairwise.nil
  · rw [(hmem date s' hs').2]
    exact hwhole
  · obtain ⟨rfl, rfl⟩ := hmem date s' hs'
    rwa [Nat.zero_mul, Nat.zero_add, Nat.zero_add, Nat.one_mul]

/-- A morning whose opening auction is listed first and ends after the opening. -/
def maskedCalendar : TradingCalendar :=
  oneDay [⟨"OPENING_AUCTION", minutes 75, minutes 100⟩, ⟨"CONTINUOUS_AM", minutes 90, minutes 210⟩]

/-- An evening session that closes at midnight. -/
def midnightCalendar : TradingCalendar := oneDay [⟨"CONTINUOUS_PM", minutes 840, minutes 960⟩]

theorem maskedCalendar_days : ContinuousDays maskedCalendar :=
  continuousDays_oneDay rfl (by decide) (by decide) (by decide)

theorem midnightCalendar_days : ContinuousDays midnightCalendar :=
  continuousDays_oneDay rfl (by decide) (by decide) (by decide)

/-- Two ticks of a morning that an auction masks in part. -/
theorem handed_masked_minutes :
    (((graceWorker maskedCalendar).handed .new [minutes 92, minutes 93 + 1]).map Prod.snd).Pairwise
      (· < ·) ∧
    ((graceWorker maskedCalendar).startedKeys .new [minutes 92, minutes 93 + 1]).Nodup ∧
    (∀ p ∈ (graceWorker maskedCalendar).handed .new [minutes 92, minutes 93 + 1],
      IsGreatest {m | maskedCalendar.LegalMinute m ∧ m ≤ p.1} p.2) ∧
    ∀ m, (∃ t, (t, m) ∈ (graceWorker maskedCalendar).handed .new [minutes 92, minutes 93 + 1]) ↔
      ∃ t ∈ [minutes 92, minutes 93 + 1], (graceWorker maskedCalendar).Due maskedCalendar t m :=
  handed_minutes (graceWorker maskedCalendar) rfl rfl rfl maskedCalendar_days (by decide)
    (by decide)

/-- A tick before the close, and a tick within the grace period after it, that hand no minute
over. -/
theorem due_minutes_are_passed_over :
    (¬∀ calendar, ContinuousDays calendar → ∀ instants : List Instant, ∀ date,
      ∀ s ∈ calendar.continuousSessions date, ∀ m, s.HasMinute m →
      (∃ t ∈ instants, m ≤ t ∧ t < m + minutes 1 ∧ t < s.closesAt) →
      ∃ t, (t, m) ∈ (graceWorker calendar).handed .new instants) ∧
    ¬∀ calendar, ContinuousDays calendar → ∀ instants : List Instant, ∀ date,
      ∀ s ∈ calendar.continuousSessions date,
      (∃ t ∈ instants, s.closesAt ≤ t ∧ t ≤ s.closesAt + 2 * microsPerSecond) →
      ∃ t, (t, s.closesAt) ∈ (graceWorker calendar).handed .new instants := by
  constructor
  · intro h
    obtain ⟨t, ht⟩ := h maskedCalendar maskedCalendar_days [minutes 91 + 15 * microsPerSecond] 0
      ⟨"CONTINUOUS_AM", minutes 90, minutes 210⟩ (by decide) (minutes 91)
      ⟨by decide, by decide, by decide⟩ ⟨_, List.mem_cons_self, by decide, by decide, by decide⟩
    have hnone : (graceWorker maskedCalendar).handed .new
        [minutes 91 + 15 * microsPerSecond] = [] := by rfl
    rw [hnone] at ht
    cases ht
  · intro h
    obtain ⟨t, ht⟩ := h midnightCalendar midnightCalendar_days [minutes 960] 0
      ⟨"CONTINUOUS_PM", minutes 840, minutes 960⟩ (by decide)
      ⟨_, List.mem_cons_self, by decide, by decide⟩
    have hnone : (graceWorker midnightCalendar).handed .new [minutes 960] = [] := by rfl
    rw [hnone] at ht
    cases ht

end MarketMonitor
