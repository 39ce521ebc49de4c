import MarketMonitor.MarketData.LegalMinutes
import MarketMonitor.Analysis.MetricInput

/-!
# The minute tail of a member

The bars of a member that end its current session minute by minute, and the closes and
amounts that the metrics read off them. A bar is labelled by its right edge, so that the
`n`-th bar from the end ends `n - 1` minutes before the last one (`IsTail.right_edge`) : the
amounts are those of the last five minutes, the closes those of one minute later than five,
ten and fifteen minutes ago (`minute_windows_align_iff`).
-/

namespace MarketMonitor

open Decimal

/-! ## Bars -/

/-- `_Bar` -/
structure Bar where
  instrumentUid : Uid
  interval : String
  sourceTime : Instant
  close : Decimal
  amount : Decimal
  epochUid : Uid
  deriving DecidableEq, Repr

/-- The bars in the order of their source times. -/
def sortBars (bars : List Bar) : List Bar :=
  bars.insertionSort fun a b => a.sourceTime ≤ b.sourceTime

/-- `minute_by_instrument[instrument_uid]` and `daily_by_instrument[instrument_uid]`. -/
def barsOf (bars : List Bar) (instrumentUid : Uid) (interval : String) : List Bar :=
  sortBars (bars.filter fun b => b.instrumentUid = instrumentUid ∧ b.interval = interval)

/-- The loop of `_complete_current_tail` over the earlier bars of the session, latest first. -/
def extendTail : List Bar → List Bar → List Bar
  | [], tail => tail
  | item :: earlier, tail =>
    if tail.head?.any fun first => first.sourceTime = item.sourceTime + minutes 1 then
      if (item :: tail).length = 15 then item :: tail else extendTail earlier (item :: tail)
    else tail

/-- The bars of a day up to `as_of`, in their order. -/
def completeBars (bars : List Bar) (asOf : Instant) : List Bar :=
  sortBars (bars.filter fun b =>
    b.sourceTime ≤ asOf ∧ chinaDate b.sourceTime = chinaDate asOf)

/-- The complete bars of a session. -/
def sessionBars (bars : List Bar) (asOf : Instant) (session : TradingSession) : List Bar :=
  (completeBars bars asOf).filter fun b =>
    session.opensAt < b.sourceTime ∧ b.sourceTime ≤ session.closesAt

/-- `_complete_current_tail(bars, as_of, clock, exchange, active_session)`. -/
def completeCurrentTail (bars : List Bar) (asOf : Instant) (calendar : TradingCalendar)
    (activeSession : Option TradingSession) : Option (List Bar) := do
  let last ← (completeBars bars asOf).getLast?
  let session ← (activeSession <|> calendar.continuousSessionAt asOf) <|>
    calendar.continuousSessionAt (last.sourceTime - 1)
  let newest ← (sessionBars bars asOf session).getLast?
  return extendTail (sessionBars bars asOf session).dropLast.reverse [newest]

/-- `tail[-n].close`, of a tail of at least `n` bars. -/
def closeBack (tail : List Bar) (n : ℕ) : Option Decimal :=
  if tail.length < n then none else (tail[tail.length - n]?).map Bar.close

/-- `tail[-n:]` -/
def lastBars (tail : List Bar) (n : ℕ) : List Bar := tail.drop (tail.length - n)

/-- `sum(item.amount for item in bars)` -/
def sumAmounts (bars : List Bar) : Decimal := sum (bars.map Bar.amount)

/-- A member of the metric input, from its quote, its minute tail and its daily bars. -/
def metricMemberOf (instrumentUid : Uid) (status : QuoteStatus)
    (quote : Option Decimal × Option Decimal) (tail : Option (List Bar)) (daily : List Bar)
    (asOf : Instant) : MetricMember where
  instrumentUid := instrumentUid
  quoteStatus := status
  price := quote.1
  preClose := quote.2
  close5m := tail.bind (closeBack · 5)
  close10m := tail.bind (closeBack · 10)
  close15m := tail.bind (closeBack · 15)
  amount5m := tail.bind fun tail =>
    if tail.length < 5 then none else some (sumAmounts (lastBars tail 5))
  amount15m := tail.bind fun tail =>
    if tail.length < 15 then none else some (sumAmounts tail)
  previousAmount5m := tail.bind fun tail =>
    if tail.length < 10 then none else some (sumAmounts ((lastBars tail 10).take 5))
  trailingDailyAmounts :=
    let amounts := (daily.filter fun b => b.sourceTime ≤ asOf ∧ zero < b.amount).map Bar.amount
    amounts.drop (amounts.length - 20)
  knownSuspended := status = .suspended

/-- `current_tails[instrument_uid]` -/
def currentTail (bars : List Bar) (calendar : TradingCalendar) (asOf : Instant)
    (instrumentUid : Uid) : Option (List Bar) :=
  completeCurrentTail (barsOf bars instrumentUid "1m") asOf calendar
    (calendar.continuousSessionAt asOf)

/-- The member that `_metric_input` builds for an instrument. -/
def metricMemberAt (bars : List Bar) (calendar : TradingCalendar) (asOf : Instant)
    (instrumentUid : Uid) (status : QuoteStatus) (quote : Option Decimal × Option Decimal) :
    MetricMember :=
  metricMemberOf instrumentUid status quote (currentTail bars calendar asOf instrumentUid)
    (barsOf bars instrumentUid "1d") asOf

/-! ## The shape of a tail -/

/-- Bars that follow one another minute by minute. -/
def MinuteByMinute (bars : List Bar) : Prop :=
  bars.IsChain fun a b => b.sourceTime = a.sourceTime + minutes 1

/-- The loop prepends bars, each a minute before the next, until it has fifteen, there are
none left, or one leaves a gap. -/
theorem extendTail_eq {earlier tail : List Bar} (htail : tail ≠ []) (hchain : MinuteByMinute tail) :
    ∃ taken dropped, earlier = taken ++ dropped ∧
      extendTail earlier tail = taken.reverse ++ tail ∧
      MinuteByMinute (taken.reverse ++ tail) ∧
      (15 ≤ (taken.reverse ++ tail).length ∨
        ∀ item ∈ dropped.head?, ¬MinuteByMinute (item :: (taken.reverse ++ tail))) := by
  induction earlier generalizing tail with
  | nil => exact ⟨[], [], rfl, rfl, hchain, .inr (by simp)⟩
  | cons item earlier ih =>
    obtain ⟨first, rest, rfl⟩ := List.exists_cons_of_ne_nil htail
    rw [extendTail]
    split
    case isTrue hstep =>
      have hnext : MinuteByMinute (item :: first :: rest) :=
        List.isChain_cons_cons.mpr ⟨by simpa using hstep, hchain⟩
      split
      case isTrue hlength => exact ⟨[item], earlier, rfl, rfl, hnext, .inl hlength.ge⟩
      case isFalse =>
        obtain ⟨taken, dropped, heq, hextend, hall, hstop⟩ := ih (List.cons_ne_nil item _) hnext
        have happend : (item :: taken).reverse ++ first :: rest =
            taken.reverse ++ item :: first :: rest := by simp
        exact ⟨item :: taken, dropped, by rw [heq]; rfl, by rw [hextend, happend],
          by rwa [happend], by rwa [happend]⟩
    case isFalse hstep =>
      refine ⟨[], item :: earlier, rfl, rfl, hchain, .inr ?_⟩
      rintro _ ⟨⟩ hnext
      exact hstep (by simpa using (List.isChain_cons_cons.mp hnext).1)

/-- The bars are sorted by their times, no two of which are the same. -/
def StrictlySorted (bars : List Bar) : Prop :=
  bars.Pairwise fun a b => a.sourceTime < b.sourceTime

theorem StrictlySorted.sublist {bars bars' : List Bar} (h : StrictlySorted bars)
    (hsub : bars'.Sublist bars) : StrictlySorted bars' :=
  List.Pairwise.sublist hsub h

theorem StrictlySorted.eq_of_time {bars : List Bar} (h : StrictlySorted bars) {a b : Bar}
    (ha : a ∈ bars) (hb : b ∈ bars) (htime : a.sourceTime = b.sourceTime) : a = b := by
  by_contra hne
  have : Std.Symm fun a b : Bar => a.sourceTime ≠ b.sourceTime := ⟨fun _ _ h => h.symm⟩
  exact (List.Pairwise.imp (fun h => h.ne) h).forall ha hb hne htime

theorem sortBars_eq {bars : List Bar} (h : StrictlySorted bars) : sortBars bars = bars :=
  List.Pairwise.insertionSort_eq (List.Pairwise.imp (fun h => by simpa using h.le) h)

theorem time_of_minuteByMinute {bars : List Bar} (h : MinuteByMinute bars) {i j : ℕ} (hij : i ≤ j)
    (hj : j < bars.length) :
    bars[j].sourceTime = bars[i].sourceTime + minutes (j - i) := by
  induction j, hij using Nat.le_induction with
  | base => simp [minutes]
  | succ j hij ih =>
    have hstep := h.getElem j hj
    rw [hstep, ih (by omega), Nat.succ_sub hij, minutes, minutes, minutes]
    lia

/-- A tail is the longest run of minute bars that ends a session, of at most fifteen. -/
structure IsTail (current tail : List Bar) : Prop where
  nonempty : tail ≠ []
  chain : MinuteByMinute tail
  append : ∃ init, current = init ++ tail ∧
    (15 ≤ tail.length ∨ ∀ item ∈ init.getLast?, ¬MinuteByMinute (item :: tail))

/-- Extending from the newest bar gives the tail. -/
theorem extendTail_isTail {current : List Bar} {newest : Bar} (h : current.getLast? = some newest) :
    IsTail current (extendTail current.dropLast.reverse [newest]) := by
  have hcurrent : current.dropLast ++ [newest] = current :=
    List.dropLast_append_getLast? newest h
  obtain ⟨taken, dropped, heq, hextend, hchain, hstop⟩ :=
    @extendTail_eq current.dropLast.reverse [newest] (List.cons_ne_nil newest [])
      (List.isChain_singleton newest)
  rw [hextend]
  refine ⟨by simp, hchain, dropped.reverse, ?_, ?_⟩
  · rw [← List.append_assoc, ← List.reverse_append, ← heq, List.reverse_reverse, hcurrent]
  · rwa [List.getLast?_reverse]

theorem completeCurrentTail_isTail {bars tail : List Bar} {asOf : Instant}
    {calendar : TradingCalendar} {session : TradingSession}
    (h : completeCurrentTail bars asOf calendar (some session) = some tail) :
    IsTail (sessionBars bars asOf session) tail := by
  simp only [completeCurrentTail, Option.bind_eq_bind, Option.bind_eq_some_iff, Option.pure_def,
    Option.some.injEq] at h
  obtain ⟨last, -, current, hsession, newest, hnewest, rfl⟩ := h
  obtain rfl : session = current := by simpa using hsession
  exact extendTail_isTail hnewest

namespace IsTail

variable {current tail : List Bar}

/-- The right edge of the last bar. -/
def lastEdge (h : IsTail current tail) : Instant := (tail.getLast h.nonempty).sourceTime

/-- The `n`-th bar from the end ends `n - 1` minutes before the last. -/
theorem right_edge (h : IsTail current tail) {i : ℕ} (hi : i < tail.length) :
    tail[i].sourceTime + minutes (tail.length - 1 - i) = h.lastEdge := by
  rw [lastEdge, List.getLast_eq_getElem]
  exact (time_of_minuteByMinute h.chain (by omega) (by omega)).symm

end IsTail

/-! ## The bars of a window -/

theorem minutes_le_minutes {m n : ℕ} : minutes m ≤ minutes n ↔ m ≤ n := by
  simp only [minutes, microsPerSecond]
  omega

theorem mem_sessionBars {bars : List Bar} {asOf : Instant} {session : TradingSession} {b : Bar} :
    b ∈ sessionBars bars asOf session ↔
      b ∈ bars ∧ b.sourceTime ≤ asOf ∧ chinaDate b.sourceTime = chinaDate asOf ∧
        session.opensAt < b.sourceTime ∧ b.sourceTime ≤ session.closesAt := by
  simp only [sessionBars, completeBars, sortBars, List.mem_filter, List.mem_insertionSort,
    decide_eq_true_eq, and_assoc]

theorem StrictlySorted.sessionBars {bars : List Bar} (h : StrictlySorted bars) (asOf : Instant)
    (session : TradingSession) : StrictlySorted (sessionBars bars asOf session) := by
  rw [MarketMonitor.sessionBars, completeBars, sortBars_eq (h.sublist List.filter_sublist)]
  exact h.sublist (List.filter_sublist.trans List.filter_sublist)

/-- The bars of a session are all of a member's between two of them. -/
theorem mem_sessionBars_of_between {bars : List Bar} {asOf : Instant} {session : TradingSession}
    {first last b : Bar} (hfirst : first ∈ sessionBars bars asOf session)
    (hlast : last ∈ sessionBars bars asOf session) (hb : b ∈ bars)
    (hlow : first.sourceTime ≤ b.sourceTime) (hhigh : b.sourceTime ≤ last.sourceTime) :
    b ∈ sessionBars bars asOf session := by
  rw [mem_sessionBars] at hfirst hlast ⊢
  obtain ⟨-, -, hfirstDate, hopens, -⟩ := hfirst
  obtain ⟨-, hasOf, hlastDate, -, hcloses⟩ := hlast
  have hdate : ∀ {x y : Instant}, x ≤ y → chinaDate x ≤ chinaDate y := fun h =>
    Nat.div_le_div_right (Nat.add_le_add_right h _)
  exact ⟨hb, hhigh.trans hasOf,
    le_antisymm (hlastDate ▸ hdate hhigh) (hfirstDate ▸ hdate hlow), hopens.trans_le hlow,
    hhigh.trans hcloses⟩

/-- The bars whose minutes end in `(T - older, T - newer]`. -/
def windowBars (bars : List Bar) (T : Instant) (older newer : ℕ) : List Bar :=
  bars.filter fun b => T < b.sourceTime + minutes older ∧ b.sourceTime + minutes newer ≤ T

namespace IsTail

variable {bars tail : List Bar} {asOf : Instant} {session : TradingSession}

theorem sublist (h : IsTail (sessionBars bars asOf session) tail) :
    tail.Sublist (sessionBars bars asOf session) := by
  obtain ⟨init, happend, -⟩ := h.append
  rw [happend]
  exact List.sublist_append_right init tail

/-- The bars of a tail are those between its first and its last. -/
theorem mem_iff (h : IsTail (sessionBars bars asOf session) tail) (hsorted : StrictlySorted bars)
    {b : Bar} :
    b ∈ tail ↔ b ∈ bars ∧ (tail.head h.nonempty).sourceTime ≤ b.sourceTime ∧
      b.sourceTime ≤ h.lastEdge := by
  have hcurrent := hsorted.sessionBars asOf session
  obtain ⟨init, happend, -⟩ := h.append
  constructor
  · intro hb
    have htail := (List.pairwise_append.mp (happend ▸ hcurrent)).2.1
    refine ⟨(mem_sessionBars.mp (h.sublist.subset hb)).1, ?_, ?_⟩
    · obtain ⟨first, rest, rfl⟩ := List.exists_cons_of_ne_nil h.nonempty
      rcases List.mem_cons.mp hb with rfl | hrest
      · exact le_rfl
      · exact ((List.pairwise_cons.mp htail).1 b hrest).le
    · obtain ⟨i, hi, rfl⟩ := List.mem_iff_getElem.mp hb
      rw [← h.right_edge hi]
      exact Nat.le_add_right _ _
  · rintro ⟨hb, hlow, hhigh⟩
    have hmem : b ∈ init ++ tail := happend ▸ mem_sessionBars_of_between
      (h.sublist.subset (List.head_mem h.nonempty))
      (h.sublist.subset (List.getLast_mem h.nonempty)) hb hlow hhigh
    refine (List.mem_append.mp hmem).resolve_left fun hinit => hlow.not_gt ?_
    exact (List.pairwise_append.mp (happend ▸ hcurrent)).2.2 b hinit _ (List.head_mem h.nonempty)

/-- The bars of a tail between the `n`-th and the `k`-th from the end. -/
theorem mem_slice (h : IsTail (sessionBars bars asOf session) tail) (hsorted : StrictlySorted bars)
    {n k : ℕ} (hn : n ≤ tail.length) (hk : k < n) {b : Bar} :
    b ∈ (lastBars tail n).take (n - k) ↔
      b ∈ bars ∧ h.lastEdge ≤ b.sourceTime + minutes (n - 1) ∧
        b.sourceTime + minutes k ≤ h.lastEdge := by
  have hmem : b ∈ (lastBars tail n).take (n - k) ↔
      ∃ i, ∃ hi : i < tail.length, tail[i] = b ∧ tail.length - 1 - i ≤ n - 1 ∧
        k ≤ tail.length - 1 - i := by
    simp only [lastBars, List.mem_iff_getElem, List.getElem_take, List.getElem_drop,
      List.length_take, List.length_drop]
    constructor
    · rintro ⟨i, hi, rfl⟩
      exact ⟨_, by omega, rfl, by omega, by omega⟩
    · rintro ⟨i, hi, rfl, hlow, hhigh⟩
      exact ⟨i - (tail.length - n), by omega, by congr 1; omega⟩
  have hedge : ∀ i, ∀ hi : i < tail.length,
      (tail.length - 1 - i ≤ n - 1 ↔ h.lastEdge ≤ tail[i].sourceTime + minutes (n - 1)) ∧
        (k ≤ tail.length - 1 - i ↔ tail[i].sourceTime + minutes k ≤ h.lastEdge) := by
    intro i hi
    rw [← h.right_edge hi]
    exact ⟨minutes_le_minutes.symm.trans (Nat.add_le_add_iff_left).symm,
      minutes_le_minutes.symm.trans (Nat.add_le_add_iff_left).symm⟩
  rw [hmem]
  constructor
  · rintro ⟨i, hi, rfl, hlow, hhigh⟩
    exact ⟨((h.mem_iff hsorted).mp (List.getElem_mem hi)).1, (hedge i hi).1.mp hlow,
      (hedge i hi).2.mp hhigh⟩
  · rintro ⟨hb, hlow, hhigh⟩
    have hhead : (tail.head h.nonempty).sourceTime + minutes (tail.length - 1) = h.lastEdge := by
      rw [List.head_eq_getElem]
      exact h.right_edge (List.length_pos_iff.mpr h.nonempty)
    have hn : minutes (n - 1) ≤ minutes (tail.length - 1) := minutes_le_minutes.mpr (by omega)
    obtain ⟨i, hi, rfl⟩ := List.mem_iff_getElem.mp
      ((h.mem_iff hsorted).mpr ⟨hb, by lia, by lia⟩)
    exact ⟨i, hi, rfl, (hedge i hi).1.mpr hlow, (hedge i hi).2.mpr hhigh⟩

end IsTail

theorem StrictlySorted.ext {l l' : List Bar} (h : StrictlySorted l) (h' : StrictlySorted l')
    (hmem : ∀ b, b ∈ l ↔ b ∈ l') : l = l' := by
  have hnodup : ∀ {l : List Bar}, StrictlySorted l → l.Nodup := fun h =>
    List.Pairwise.imp (fun hlt heq => hlt.ne (congrArg Bar.sourceTime heq)) h
  have hperm : l.Perm l' := (List.perm_ext_iff_of_nodup (hnodup h) (hnodup h')).mpr hmem
  unfold StrictlySorted at h h'
  exact List.Perm.eq_of_pairwise (fun a b _ _ hab hba => absurd hba (lt_asymm hab)) h h' hperm

/-! ## Alignment -/

/-- The right edge of the last complete bar of a session. -/
def IsLastEdge (bars : List Bar) (asOf : Instant) (session : TradingSession) (T : Instant) : Prop :=
  IsGreatest {t | ∃ b ∈ sessionBars bars asOf session, b.sourceTime = t} T

/-- `c` is the close at the right edge `T - n`. -/
def IsCloseAt (bars : List Bar) (T : Instant) (n : ℕ) (c : Decimal) : Prop :=
  ∃ b ∈ bars, b.sourceTime + minutes n = T ∧ b.close.toRat = c.toRat

/-- The closes at the right edges `T - (n - 1)` and `T - n` are the same. -/
def SameClose (bars : List Bar) (T : Instant) (n : ℕ) : Prop :=
  ∃ b ∈ bars, b.sourceTime + minutes (n - 1) = T ∧ IsCloseAt bars T n b.close

/-- No bar ends strictly between `T - n` and `T - (n - 1)`. -/
def NothingBetween (bars : List Bar) (T : Instant) (n : ℕ) : Prop :=
  ∀ b ∈ bars, T < b.sourceTime + minutes n → T ≤ b.sourceTime + minutes (n - 1)

/-- The last `n` bars of a session follow one another minute by minute. -/
def Consecutive (current : List Bar) (n : ℕ) : Prop :=
  n ≤ current.length ∧ MinuteByMinute (lastBars current n)

namespace IsTail

variable {bars current tail : List Bar} {asOf : Instant} {session : TradingSession}

/-- A tail ends at the last edge. -/
theorem isLastEdge (h : IsTail (sessionBars bars asOf session) tail)
    (hsorted : StrictlySorted bars) : IsLastEdge bars asOf session h.lastEdge := by
  refine ⟨⟨_, h.sublist.subset (List.getLast_mem h.nonempty), rfl⟩, ?_⟩
  rintro _ ⟨b, hb, rfl⟩
  obtain ⟨init, happend, -⟩ := h.append
  rw [happend] at hb
  rcases List.mem_append.mp hb with hinit | htail
  · have hcurrent := hsorted.sessionBars asOf session
    exact ((List.pairwise_append.mp (happend ▸ hcurrent)).2.2 b hinit _
      (List.getLast_mem h.nonempty)).le
  · exact ((h.mem_iff hsorted).mp htail).2.2

/-- The tail has `n` bars exactly if the last `n` of the session are consecutive. -/
theorem le_length_iff (h : IsTail current tail) {n : ℕ} (hn : n ≤ 15) :
    n ≤ tail.length ↔ Consecutive current n := by
  obtain ⟨init, rfl, hstop⟩ := h.append
  have hdrop : ∀ k, lastBars (init ++ tail) (k + tail.length) = lastBars init k ++ tail := by
    intro k
    rw [lastBars, lastBars, List.length_append, Nat.add_sub_add_right,
      List.drop_append_of_le_length (Nat.sub_le _ _)]
  constructor
  · intro hle
    refine ⟨hle.trans (by simp), ?_⟩
    have hlast : lastBars (init ++ tail) n = lastBars tail n := by
      rw [lastBars, lastBars, List.length_append, Nat.add_sub_assoc hle, List.drop_append,
        List.drop_eq_nil_of_le (Nat.le_add_right _ _), List.nil_append, Nat.add_sub_cancel_left]
    rw [hlast]
    exact h.chain.drop _
  · rintro ⟨hle, hchain⟩
    by_contra hlt
    obtain ⟨k, rfl⟩ : ∃ k, n = k + 1 + tail.length := ⟨n - tail.length - 1, by omega⟩
    have hk : k + 1 ≤ init.length := by
      rw [List.length_append] at hle
      omega
    have hinit : init ≠ [] := by
      rintro rfl
      exact absurd hk (by simp)
    refine (hstop.resolve_left (by omega)) _ (List.getLast?_eq_some_getLast hinit) ?_
    rw [hdrop] at hchain
    have hsuffix : [init.getLast hinit] <:+ lastBars init (k + 1) := by
      rw [lastBars]
      have hlast : [init.getLast hinit] <:+ init :=
        ⟨init.dropLast, List.dropLast_append_getLast hinit⟩
      refine List.suffix_of_suffix_length_le hlast (List.drop_suffix _ _) ?_
      rw [List.length_drop, List.length_singleton]
      omega
    obtain ⟨front, hfront⟩ := hsuffix
    rw [← hfront, List.append_assoc] at hchain
    exact hchain.right_of_append

/-- The bars of a window are those of the tail unless one ends within its first minute. -/
theorem slice_eq_window_iff (h : IsTail (sessionBars bars asOf session) tail)
    (hsorted : StrictlySorted bars) {n k : ℕ} (hn : n ≤ tail.length) (hk : k < n) :
    (lastBars tail n).take (n - k) = windowBars bars h.lastEdge n k ↔
      NothingBetween bars h.lastEdge n := by
  have hwindow : ∀ b, b ∈ windowBars bars h.lastEdge n k ↔ b ∈ bars ∧
      h.lastEdge < b.sourceTime + minutes n ∧ b.sourceTime + minutes k ≤ h.lastEdge := by
    simp [windowBars]
  have hstep : minutes (n - 1) < minutes n :=
    Nat.lt_of_not_le fun hle => absurd (minutes_le_minutes.mp hle) (by omega)
  have hk : minutes k ≤ minutes (n - 1) := minutes_le_minutes.mpr (by omega)
  constructor
  · intro heq b hb hlt
    by_contra hgap
    have hmem : b ∈ windowBars bars h.lastEdge n k := (hwindow b).mpr ⟨hb, hlt, by lia⟩
    rw [← heq, h.mem_slice hsorted hn (by omega)] at hmem
    exact hgap hmem.2.1
  · intro hnothing
    refine StrictlySorted.ext ?_ (hsorted.sublist List.filter_sublist) fun b => ?_
    · exact (hsorted.sessionBars asOf session).sublist
        (((List.take_sublist _ _).trans (List.drop_sublist _ _)).trans h.sublist)
    · rw [h.mem_slice hsorted hn (by omega), hwindow]
      constructor
      · rintro ⟨hb, hlow, hhigh⟩
        exact ⟨hb, by lia, hhigh⟩
      · rintro ⟨hb, hlow, hhigh⟩
        exact ⟨hb, hnothing b hb hlow, hhigh⟩

/-- The close that is read is that of the right edge one minute later. -/
theorem closeBack_eq_some (h : IsTail (sessionBars bars asOf session) tail)
    (hsorted : StrictlySorted bars) {n : ℕ} (hn : n ≤ tail.length) (hpos : 0 < n) :
    ∃ b ∈ bars, b.sourceTime + minutes (n - 1) = h.lastEdge ∧ closeBack tail n = some b.close := by
  have hi : tail.length - n < tail.length := by omega
  refine ⟨tail[tail.length - n], ((h.mem_iff hsorted).mp (List.getElem_mem hi)).1, ?_, ?_⟩
  · rw [← h.right_edge hi]
    congr 2
    omega
  · rw [closeBack, if_neg hn.not_gt, List.getElem?_eq_getElem hi, Option.map_some]

/-- The close that is read is the one `n` minutes ago if both closes are the same. -/
theorem closeBack_isCloseAt_iff (h : IsTail (sessionBars bars asOf session) tail)
    (hsorted : StrictlySorted bars) {n : ℕ} (hn : n ≤ tail.length) (hpos : 0 < n) :
    (∀ c ∈ closeBack tail n, IsCloseAt bars h.lastEdge n c) ↔ SameClose bars h.lastEdge n := by
  obtain ⟨b, hb, hedge, hclose⟩ := h.closeBack_eq_some hsorted hn hpos
  constructor
  · intro hall
    exact ⟨b, hb, hedge, hall _ hclose⟩
  · rintro ⟨b', hb', hedge', hsame⟩ c hc
    obtain rfl := hsorted.eq_of_time hb hb' (Nat.add_right_cancel (hedge.trans hedge'.symm))
    obtain rfl : b.close = c := Option.some.inj (hclose.symm.trans hc)
    exact hsame

theorem closeBack_eq_none {n : ℕ} (hn : ¬n ≤ tail.length) : closeBack tail n = none :=
  if_pos (not_le.mp hn)

end IsTail

/-- The bars that a manifest names, of one epoch : the key of their table is unique. -/
structure BarRows (bars : List Bar) : Prop where
  oneEpoch : ∀ a ∈ bars, ∀ b ∈ bars, a.epochUid = b.epochUid
  unique : bars.Pairwise fun a b =>
    (a.epochUid, a.instrumentUid, a.interval, a.sourceTime) ≠
      (b.epochUid, b.instrumentUid, b.interval, b.sourceTime)

/-- The bars of an instrument are in the order of their times. -/
theorem BarRows.strictlySorted {bars : List Bar} (h : BarRows bars) (instrumentUid : Uid)
    (interval : String) : StrictlySorted (barsOf bars instrumentUid interval) := by
  let key := fun b : Bar => b.instrumentUid = instrumentUid ∧ b.interval = interval
  have hdistinct : (bars.filter key).Pairwise fun a b => a.sourceTime ≠ b.sourceTime := by
    refine (h.unique.sublist List.filter_sublist).imp_of_mem fun {a b} ha hb hne heq => hne ?_
    obtain ⟨ha, hkey⟩ := List.mem_filter.mp ha
    obtain ⟨hb, hkey'⟩ := List.mem_filter.mp hb
    obtain ⟨hinstrument, hinterval⟩ : key a := by simpa using hkey
    obtain ⟨hinstrument', hinterval'⟩ : key b := by simpa using hkey'
    rw [h.oneEpoch a ha b hb, hinstrument, hinterval, heq, hinstrument', hinterval']
  have hdistinct := ((List.perm_insertionSort (fun a b : Bar => a.sourceTime ≤ b.sourceTime)
    (bars.filter key)).pairwise_iff fun hne => hne.symm).mpr hdistinct
  have : Std.Total fun a b : Bar => a.sourceTime ≤ b.sourceTime := ⟨fun a b => le_total _ _⟩
  have : IsTrans Bar fun a b => a.sourceTime ≤ b.sourceTime := ⟨fun a b c => le_trans⟩
  have hsorted := List.pairwise_insertionSort (fun a b : Bar => a.sourceTime ≤ b.sourceTime)
    (bars.filter key)
  exact hsorted.imp₂ (fun a b hle hne => lt_of_le_of_ne hle hne) hdistinct

/-- An amount is the sum of exactly the bars of a window. -/
def SumsExactly (amount : Option Decimal) (summed window : List Bar) : Prop :=
  amount = some (sumAmounts summed) ∧ summed = window

/-- The windows of a member end at one right edge `T`. -/
structure WindowsAlign (bars : List Bar) (asOf : Instant) (session : TradingSession)
    (tail : List Bar) (member : MetricMember) (T : Instant) : Prop where
  lastEdge : IsLastEdge bars asOf session T
  amount5m : SumsExactly member.amount5m (lastBars tail 5) (windowBars bars T 5 0)
  close5m : ∀ c ∈ member.close5m, IsCloseAt bars T 5 c
  close10m : ∀ c ∈ member.close10m, IsCloseAt bars T 10 c
  close15m : ∀ c ∈ member.close15m, IsCloseAt bars T 15 c
  previousAmount5m : member.previousAmount5m ≠ none →
    SumsExactly member.previousAmount5m ((lastBars tail 10).take 5) (windowBars bars T 10 5)

/-- Nothing moves in the minute between the close that is read and the one that is meant. -/
structure QuietMinutes (bars current : List Bar) (T : Instant) : Prop where
  nothing5 : NothingBetween bars T 5
  close5 : SameClose bars T 5
  nothing10 : Consecutive current 10 → NothingBetween bars T 10
  close10 : Consecutive current 10 → SameClose bars T 10
  close15 : Consecutive current 15 → SameClose bars T 15

/-- The windows of a member that has a five-minute close and amount align exactly if no bar
ends between the right edges they are apart, at which the closes are the same. -/
theorem minute_windows_align_iff {bars : List Bar} (hrows : BarRows bars)
    {calendar : TradingCalendar} {asOf : Instant} {session : TradingSession}
    (hsession : calendar.continuousSessionAt asOf = some session) (instrumentUid : Uid)
    (status : QuoteStatus) (quote : Option Decimal × Option Decimal)
    (hclose : (metricMemberAt bars calendar asOf instrumentUid status quote).close5m.isSome) :
    (∃ tail T, currentTail bars calendar asOf instrumentUid = some tail ∧
      WindowsAlign (barsOf bars instrumentUid "1m") asOf session tail
        (metricMemberAt bars calendar asOf instrumentUid status quote) T) ↔
      ∃ T, IsLastEdge (barsOf bars instrumentUid "1m") asOf session T ∧
        QuietMinutes (barsOf bars instrumentUid "1m")
          (sessionBars (barsOf bars instrumentUid "1m") asOf session) T := by
  have hsorted := hrows.strictlySorted instrumentUid "1m"
  obtain ⟨c, hc⟩ := Option.isSome_iff_exists.mp hclose
  obtain ⟨tail, htail, hclose5⟩ := Option.bind_eq_some_iff.mp hc
  have htail' := htail
  rw [currentTail, hsession] at htail'
  have h := completeCurrentTail_isTail htail'
  have h5 : 5 ≤ tail.length := by
    by_contra hlt
    rw [IsTail.closeBack_eq_none hlt] at hclose5
    cases hclose5
  have hcloses : ∀ {n}, 0 < n → n ≤ 15 →
      ((∀ c ∈ closeBack tail n, IsCloseAt (barsOf bars instrumentUid "1m") h.lastEdge n c) ↔
        (Consecutive (sessionBars (barsOf bars instrumentUid "1m") asOf session) n →
          SameClose (barsOf bars instrumentUid "1m") h.lastEdge n)) := by
    intro n hpos hn
    rw [← h.le_length_iff hn]
    by_cases hlength : n ≤ tail.length
    · simp only [hlength, forall_const, h.closeBack_isCloseAt_iff hsorted hlength hpos]
    · simp [hlength, IsTail.closeBack_eq_none hlength]
  have hlast := h.isLastEdge hsorted
  have hslice5 := h.slice_eq_window_iff hsorted h5 (show 0 < 5 by decide)
  have htake5 : (lastBars tail 5).take 5 = lastBars tail 5 :=
    List.take_of_length_le (by rw [lastBars, List.length_drop]; omega)
  have hconsecutive5 := (h.le_length_iff (show 5 ≤ 15 by decide)).mp h5
  have hten := h.le_length_iff (show 10 ≤ 15 by decide)
  have hmember : metricMemberAt bars calendar asOf instrumentUid status quote =
      metricMemberOf instrumentUid status quote (some tail) (barsOf bars instrumentUid "1d") asOf :=
    by rw [metricMemberAt, htail]
  rw [hmember]
  constructor
  · rintro ⟨tail', T, htail', halign⟩
    obtain rfl : tail = tail' := Option.some.inj (htail.symm.trans htail')
    obtain rfl := hlast.unique halign.lastEdge
    refine ⟨_, hlast, ?_⟩
    constructor
    · exact hslice5.mp (htake5.trans halign.amount5m.2)
    · exact (hcloses (by decide) (by decide)).mp halign.close5m hconsecutive5
    · intro hcons
      have hlength := hten.mpr hcons
      refine (h.slice_eq_window_iff hsorted hlength (show 5 < 10 by decide)).mp ?_
      refine (halign.previousAmount5m ?_).2
      simp [metricMemberOf, hlength.not_gt]
    · exact (hcloses (by decide) (by decide)).mp halign.close10m
    · exact (hcloses (by decide) (by decide)).mp halign.close15m
  · rintro ⟨T, hT, hquiet⟩
    obtain rfl := hlast.unique hT
    refine ⟨tail, _, htail, hlast, ⟨?_, ?_⟩, ?_, ?_, ?_, ?_⟩
    · simp [metricMemberOf, h5.not_gt]
    · exact htake5.symm.trans (hslice5.mpr hquiet.nothing5)
    · exact (hcloses (by decide) (by decide)).mpr fun _ => hquiet.close5
    · exact (hcloses (by decide) (by decide)).mpr hquiet.close10
    · exact (hcloses (by decide) (by decide)).mpr hquiet.close15
    · intro hgiven
      have hlength : 10 ≤ tail.length := by
        by_contra hlt
        exact hgiven (by simp [metricMemberOf, not_le.mp hlt])
      refine ⟨by simp [metricMemberOf, hlength.not_gt], ?_⟩
      exact (h.slice_eq_window_iff hsorted hlength (show 5 < 10 by decide)).mpr
        (hquiet.nothing10 (hten.mp hlength))

/-- A minute of the first session of a day. -/
def openingBar (close : ℕ → ℤ) (i : ℕ) : Bar :=
  ⟨"member", "1m", minutes (738000 * 1440 + 91 + i), ofInt (close i), ofInt 100, "epoch"⟩

/-- The first six minutes of a session. -/
def openingBars (close : ℕ → ℤ) : List Bar := (List.range 6).map (openingBar close)

/-- The instant at which the sixth minute is complete. -/
def sixthEdge : Instant := minutes (738000 * 1440 + 96)

def morningSession : TradingSession :=
  ⟨"CONTINUOUS_AM", minutes (738000 * 1440 + 90), minutes (738000 * 1440 + 210)⟩

/-- The windows of a member whose price stands still. -/
theorem minute_windows_of_flat_prices :
    ∃ tail T, currentTail (openingBars fun _ => 10) sampleTradingDay sixthEdge "member" =
        some tail ∧
      WindowsAlign (barsOf (openingBars fun _ => 10) "member" "1m") sixthEdge morningSession tail
        (metricMemberAt (openingBars fun _ => 10) sampleTradingDay sixthEdge "member" .valid
          (none, none)) T := by
  have hrows : BarRows (openingBars fun _ => 10) := ⟨by decide, by decide +kernel⟩
  refine (minute_windows_align_iff hrows (by decide +kernel) "member" .valid (none, none)
    (by decide +kernel)).mpr ⟨sixthEdge, ⟨?_, ?_⟩, ?_⟩
  · decide +kernel
  · rintro _ ⟨b, hb, rfl⟩
    exact (mem_sessionBars.mp hb).2.1
  · have hshort : ∀ n, 6 < n → ¬Consecutive
        (sessionBars (barsOf (openingBars fun _ => 10) "member" "1m") sixthEdge morningSession) n :=
      fun n hn hcons => hcons.1.not_gt (hn.trans_eq' (by decide +kernel))
    have hnothing :
        NothingBetween (barsOf (openingBars fun _ => 10) "member" "1m") sixthEdge 5 := by
      unfold NothingBetween
      decide +kernel
    refine ⟨hnothing, ⟨openingBar (fun _ => 10) 1, by decide +kernel, by decide +kernel,
      openingBar (fun _ => 10) 0, by decide +kernel, by decide +kernel, rfl⟩, ?_, ?_, ?_⟩
    all_goals exact fun hcons => absurd hcons (hshort _ (by decide))

/-- A price that rises : the five-minute close is the one of four minutes ago. -/
theorem minute_windows_of_rising_prices :
    BarRows (openingBars fun i => 10 + i) ∧
      sampleTradingDay.continuousSessionAt sixthEdge = some morningSession ∧
      (metricMemberAt (openingBars fun i => 10 + i) sampleTradingDay sixthEdge "member" .valid
        (none, none)).close5m.isSome ∧
      (metricMemberAt (openingBars fun i => 10 + i) sampleTradingDay sixthEdge "member" .valid
        (none, none)).amount5m.isSome ∧
      ¬∃ tail T, currentTail (openingBars fun i => 10 + i) sampleTradingDay sixthEdge "member" =
          some tail ∧
        WindowsAlign (barsOf (openingBars fun i => 10 + i) "member" "1m") sixthEdge morningSession
          tail (metricMemberAt (openingBars fun i => 10 + i) sampleTradingDay sixthEdge "member"
            .valid (none, none)) T := by
  refine ⟨⟨by decide, by decide +kernel⟩, by decide +kernel, by decide +kernel, by decide +kernel,
    ?_⟩
  rintro ⟨tail, T, -, halign⟩
  obtain rfl : T = sixthEdge := by
    obtain ⟨⟨b, hb, rfl⟩, hgreatest⟩ := halign.lastEdge
    exact le_antisymm (mem_sessionBars.mp hb).2.1 (hgreatest (by decide +kernel))
  obtain ⟨b, hb, hedge, hsame⟩ := halign.close5m (ofInt 11) (by decide +kernel)
  have hclose : ∀ b ∈ barsOf (openingBars fun i => 10 + i) "member" "1m",
      b.sourceTime + minutes 5 = sixthEdge → b.close = ofInt 10 := by decide +kernel
  rw [hclose b hb hedge, toRat_ofInt, toRat_ofInt] at hsame
  norm_num at hsame

end MarketMonitor
