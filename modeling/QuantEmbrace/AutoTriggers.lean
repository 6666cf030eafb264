import QuantEmbrace.Lib.Dict
import QuantEmbrace.Lib.RecentLog
import QuantEmbrace.Lib.Stamped
import Mathlib.Algebra.Order.Floor.Ring
import Mathlib.Data.Rat.Floor

/-! The monitors that activate the kill switch by themselves. One pass of a monitor is a step; the
reads of one heartbeat pass are taken together. -/
namespace QuantEmbrace.AutoTriggers
open RecentLog Stamped

structure Thresholds where
  orderRateLimit : ℤ := 20
  orderRateWindowSecs : ℚ := 60
  brokerTimeoutSecs : ℚ := 30
  consumerLagStaleSecs : ℚ := 300
  producerHeartbeatStaleSecs : ℚ := 60
  strategyLossPct : ℚ := 5
  startupGraceSecs : ℚ := 600
  startTime : ℚ := 0

/-- What a monitor gives as the reason, and its author. -/
inductive Alarm where
  | orderRate (count : ℕ)
  | brokerConnectivity (elapsed : ℚ)
  | consumerLag (market : String) (elapsed : ℚ)
  | producerHeartbeat (market : String) (elapsed : ℚ)
  | strategyLoss (strategyId : String) (lossPct : ℚ)
  deriving DecidableEq, Repr

def Alarm.activatedBy : Alarm → String
  | .orderRate _ => "order_rate_monitor"
  | .brokerConnectivity _ => "broker_connectivity_monitor"
  | .consumerLag _ _ => "consumer_lag_monitor"
  | .producerHeartbeat _ _ => "producer_heartbeat_monitor"
  | .strategyLoss _ _ => "strategy_loss_monitor"

/-- The fields of `KillSwitchMonitor`. -/
structure KillSwitchMonitor where
  orderTimestamps : List ℚ := []
  lastBrokerPing : Option ℚ := none
  brokerConnected : Bool := false
  lastTick : Dict String ℚ := .empty
  ksWasActive : Bool := false
  strategyPnl : Dict String ℚ := .empty
  strategyCapital : Dict String ℚ := .empty

/-- `_is_market_hours`, on seconds of UTC -/
def isMarketHours (now : ℚ) : Bool :=
  let hour : ℚ := (⌊now / 3600⌋ % 24 : ℤ) + (⌊now / 60⌋ % 60 : ℤ) / 60
  (7 / 2 ≤ hour ∧ hour ≤ 21 / 2) ∨ (27 / 2 ≤ hour ∧ hour ≤ 20)

namespace KillSwitchMonitor
variable (th : Thresholds) (m : KillSwitchMonitor) (active : Bool) (now : ℚ)

def recordOrder : KillSwitchMonitor := { m with orderTimestamps := m.orderTimestamps ++ [now] }

def recordBrokerPing : KillSwitchMonitor :=
  { m with lastBrokerPing := some now, brokerConnected := true }

def recordDataTick (market : String) : KillSwitchMonitor :=
  { m with lastTick := m.lastTick.assign market.toUpper now }

def recordStrategyPnl (strategyId : String) (pnl startingCapital : ℚ) : KillSwitchMonitor :=
  { m with
    strategyPnl := m.strategyPnl.assign strategyId pnl
    strategyCapital := m.strategyCapital.assign strategyId startingCapital }

/-- `_monitor_order_rate` -/
def monitorOrderRate : KillSwitchMonitor × Option Alarm :=
  if active then (m, none)
  else
    let kept := m.orderTimestamps.dropWhile (· < now - th.orderRateWindowSecs)
    ({ m with orderTimestamps := kept },
      if th.orderRateLimit < kept.length then some (.orderRate kept.length) else none)

/-- `_monitor_broker_connectivity` -/
def monitorBrokerConnectivity : Option Alarm :=
  if active ∨ m.brokerConnected = false then none
  else
    m.lastBrokerPing.bind fun ping =>
      if th.brokerTimeoutSecs < now - ping then some (.brokerConnectivity (now - ping)) else none

/-- The switch was seen to be active, and is not any more. -/
def SeesClearing : Prop := m.ksWasActive = true ∧ active = false

instance : Decidable (m.SeesClearing active) := inferInstanceAs (Decidable (_ ∧ _))

/-- `_monitor_consumer_lag` -/
def monitorConsumerLag : KillSwitchMonitor × Option Alarm :=
  let lastTick := if m.SeesClearing active then m.lastTick.mapValues fun _ => now else m.lastTick
  ({ m with lastTick := lastTick, ksWasActive := active },
    if active ∨ isMarketHours now = false ∨ now - th.startTime < th.startupGraceSecs then none
    else
      (lastTick.rows.find? fun row => th.consumerLagStaleSecs < now - row.2).map fun row =>
        .consumerLag row.1 (now - row.2))

/-- `_monitor_producer_heartbeat`; `heartbeat` is the time of the key of a market, if it is there
and can be read. -/
def monitorProducerHeartbeat (heartbeat : String → Option ℚ) : Option Alarm :=
  if active ∨ isMarketHours now = false ∨ now - th.startTime < th.startupGraceSecs then none
  else
    ["NSE", "US"].findSome? fun market =>
      (heartbeat market).bind fun updatedAt =>
        if th.producerHeartbeatStaleSecs < now - updatedAt then
          some (.producerHeartbeat market (now - updatedAt))
        else none

/-- `_monitor_strategy_loss` -/
def monitorStrategyLoss : Option Alarm :=
  if active then none
  else
    m.strategyPnl.rows.findSome? fun (strategyId, pnl) =>
      let capital := (m.strategyCapital.value strategyId).getD 0
      if capital ≤ 0 ∨ 0 ≤ pnl then none
      else if th.strategyLossPct ≤ |pnl| / capital * 100 then
        some (.strategyLoss strategyId (|pnl| / capital * 100))
      else none

end KillSwitchMonitor

inductive MonitorEvent where
  | order
  | brokerPing
  | dataTick (market : String)
  | strategyPnl (strategyId : String) (pnl startingCapital : ℚ)
  | orderRate
  | brokerConnectivity
  | consumerLag
  | producerHeartbeat (heartbeat : String → Option ℚ)
  | strategyLoss
  /-- Others activate the switch, or an operator clears it. -/
  | switched (active : Bool)

/-- The monitor and the switch; `alarms` is history, with times. -/
structure World where
  monitor : KillSwitchMonitor := {}
  active : Bool := false
  alarms : List (Alarm × ℚ) := []

namespace World
variable (th : Thresholds) (w : World)

/-- What a step does to the monitor, and the alarm that it raises, if any. -/
def observe (w : World) : MonitorEvent × ℚ → KillSwitchMonitor × Option Alarm
  | (.order, now) => (w.monitor.recordOrder now, none)
  | (.brokerPing, now) => (w.monitor.recordBrokerPing now, none)
  | (.dataTick market, now) => (w.monitor.recordDataTick now market, none)
  | (.strategyPnl strategyId pnl capital, _) =>
    (w.monitor.recordStrategyPnl strategyId pnl capital, none)
  | (.orderRate, now) => w.monitor.monitorOrderRate th w.active now
  | (.brokerConnectivity, now) =>
    (w.monitor, w.monitor.monitorBrokerConnectivity th w.active now)
  | (.consumerLag, now) => w.monitor.monitorConsumerLag th w.active now
  | (.producerHeartbeat heartbeat, now) =>
    (w.monitor, KillSwitchMonitor.monitorProducerHeartbeat th w.active now heartbeat)
  | (.strategyLoss, _) => (w.monitor, w.monitor.monitorStrategyLoss th w.active)
  | (.switched _, _) => (w.monitor, none)

/-- An alarm activates the switch. -/
def step (w : World) (e : MonitorEvent × ℚ) : World where
  monitor := (w.observe th e).1
  active :=
    match e.1 with
    | .switched active => active
    | _ => w.active || (w.observe th e).2.isSome
  alarms := w.alarms ++ ((w.observe th e).2.map fun alarm => (alarm, e.2)).toList

variable {th w}

/-- The alarms of a run are those that its steps raise. -/
theorem mem_alarms {es : List (MonitorEvent × ℚ)} {alarm : Alarm} {t : ℚ} :
    (alarm, t) ∈ (es.foldl (step th) w).alarms ↔ (alarm, t) ∈ w.alarms ∨
      ∃ pre e post, es = pre ++ (e, t) :: post ∧
        ((pre.foldl (step th) w).observe th (e, t)).2 = some alarm := by
  induction es using List.reverseRecOn with
  | nil => simp
  | append_singleton es last ih =>
    obtain ⟨e, now⟩ := last
    rw [List.foldl_append, List.foldl_cons, List.foldl_nil, step, List.mem_append, ih, or_assoc]
    refine or_congr_right ⟨fun h => ?_, fun ⟨pre, a, post, heq, hraised⟩ => ?_⟩
    · obtain ⟨pre, a, post, rfl, hraised⟩ | hlast := h
      · exact ⟨pre, a, post ++ [(e, now)], by simp, hraised⟩
      · rw [Option.mem_toList, Option.map_eq_some_iff] at hlast
        obtain ⟨raised, hraised, heq⟩ := hlast
        cases heq
        exact ⟨es, e, [], rfl, hraised⟩
    · obtain ⟨-, rfl, hlast⟩ | ⟨post', -, rfl⟩ := split_snoc.mp heq
      · cases hlast
        rw [hraised]
        exact .inr (by simp)
      · exact .inl ⟨pre, a, post', rfl, hraised⟩

/-- The monitor that a step is a pass of. -/
def author : MonitorEvent → Option String
  | .orderRate => some "order_rate_monitor"
  | .brokerConnectivity => some "broker_connectivity_monitor"
  | .consumerLag => some "consumer_lag_monitor"
  | .producerHeartbeat _ => some "producer_heartbeat_monitor"
  | .strategyLoss => some "strategy_loss_monitor"
  | _ => none

/-- Each monitor raises its own alarms only. -/
theorem activatedBy_author {e : MonitorEvent} {t : ℚ} {alarm : Alarm}
    (h : (w.observe th (e, t)).2 = some alarm) : author e = some alarm.activatedBy := by
  cases e with
  | orderRate =>
    simp only [observe, KillSwitchMonitor.monitorOrderRate] at h
    split at h
    · cases h
    · dsimp only at h
      split at h
      · cases h
        rfl
      · cases h
  | brokerConnectivity =>
    simp only [observe, KillSwitchMonitor.monitorBrokerConnectivity] at h
    split at h
    · cases h
    · obtain ⟨ping, -, h⟩ := Option.bind_eq_some_iff.mp h
      split at h
      · cases h
        rfl
      · cases h
  | consumerLag =>
    simp only [observe, KillSwitchMonitor.monitorConsumerLag] at h
    split at h
    · cases h
    · obtain ⟨row, -, h⟩ := Option.map_eq_some_iff.mp h
      cases h
      rfl
  | producerHeartbeat heartbeat =>
    simp only [observe, KillSwitchMonitor.monitorProducerHeartbeat] at h
    split at h
    · cases h
    · obtain ⟨market, -, h⟩ := List.exists_of_findSome?_eq_some h
      obtain ⟨updatedAt, -, h⟩ := Option.bind_eq_some_iff.mp h
      split at h
      · cases h
        rfl
      · cases h
  | strategyLoss =>
    simp only [observe, KillSwitchMonitor.monitorStrategyLoss] at h
    split at h
    · cases h
    · obtain ⟨row, -, h⟩ := List.exists_of_findSome?_eq_some h
      split at h
      · cases h
      · split at h
        · cases h
          rfl
        · cases h
  | _ => cases h

/-- The times at which orders were recorded. -/
def orderTimes (es : List (MonitorEvent × ℚ)) : List ℚ :=
  es.filterMap fun e =>
    match e.1 with
    | .order => some e.2
    | _ => none

theorem orderTimes_snoc (es : List (MonitorEvent × ℚ)) (e : MonitorEvent × ℚ) :
    orderTimes (es ++ [e]) = orderTimes es ++ orderTimes [e] := by
  rw [orderTimes, List.filterMap_append]
  rfl

/-- The queue of the monitor is the part of the recorded orders from some cut on, which is not
after the window. -/
theorem orders_kept {th : Thresholds} (hwindow : 0 ≤ th.orderRateWindowSecs)
    {es : List (MonitorEvent × ℚ)} {now : ℚ} (hasc : Ascending es) (hpast : ∀ e ∈ es, e.2 ≤ now) :
    ∃ cut ≤ now - th.orderRateWindowSecs,
      Keeps cut now (es.foldl (step th) {}).monitor.orderTimestamps (orderTimes es) := by
  induction es using List.reverseRecOn generalizing now with
  | nil => exact ⟨_, le_refl _, keeps_nil⟩
  | append_singleton es last ih =>
    obtain ⟨e, t⟩ := last
    obtain ⟨hes, -, hlater⟩ := List.pairwise_append.mp hasc
    obtain ⟨cut, hcut, hkeeps⟩ :=
      ih hes fun a ha => hlater a ha (e, t) (List.mem_singleton_self _)
    have htnow : t ≤ now := hpast (e, t) (by simp)
    have hlate : cut ≤ now - th.orderRateWindowSecs := hcut.trans (sub_le_sub_right htnow _)
    rw [List.foldl_append, List.foldl_cons, List.foldl_nil, orderTimes_snoc]
    cases e with
    | order =>
      have hpush := hkeeps.push (le_refl t) (hcut.trans (sub_le_self t hwindow))
      exact ⟨cut, hlate, hpush.mono htnow⟩
    | orderRate =>
      change ∃ cut ≤ _, Keeps cut now ((KillSwitchMonitor.monitorOrderRate th _ _ t).1.orderTimestamps)
        (orderTimes es ++ [])
      rw [List.append_nil, KillSwitchMonitor.monitorOrderRate]
      split
      · exact ⟨cut, hlate, hkeeps.mono htnow⟩
      · exact ⟨t - th.orderRateWindowSecs, sub_le_sub_right htnow _, (hkeeps.evict hcut).mono htnow⟩
    | _ =>
      refine ⟨cut, hlate, ?_⟩
      change Keeps cut now _ (orderTimes es ++ [])
      rw [List.append_nil]
      exact hkeeps.mono htnow

/-- One pass of the order-rate monitor, against the orders recorded before it. -/
theorem orderRate_raised {th : Thresholds} (hwindow : 0 ≤ th.orderRateWindowSecs)
    {es : List (MonitorEvent × ℚ)} {t : ℚ} (hasc : Ascending es) (hpast : ∀ e ∈ es, e.2 ≤ t)
    (alarm : Alarm) :
    ((es.foldl (step th) {}).observe th (.orderRate, t)).2 = some alarm ↔
      (es.foldl (step th) {}).active = false ∧
        th.orderRateLimit < (orderTimes es).countP (t - th.orderRateWindowSecs ≤ ·) ∧
        alarm = .orderRate ((orderTimes es).countP (t - th.orderRateWindowSecs ≤ ·)) := by
  obtain ⟨cut, hcut, hkeeps⟩ := orders_kept hwindow hasc hpast
  simp only [observe, KillSwitchMonitor.monitorOrderRate]
  cases hactive : (es.foldl (step th) {}).active with
  | true => simp
  | false =>
    rw [if_neg (by simp)]
    dsimp only
    rw [(hkeeps.evict hcut).kept, ← List.countP_eq_length_filter]
    split
    · next hover =>
      rw [Option.some.injEq, eq_comm]
      exact ⟨fun h => ⟨rfl, hover, h⟩, fun h => h.2.2⟩
    · next hunder => exact iff_of_false nofun fun h => hunder h.2.1

/-- The order-rate monitor raises an alarm at a pass exactly if the switch is off and more orders
than the limit were recorded within the window; the alarm gives their number. -/
theorem order_rate_alarm_iff (th : Thresholds) (hwindow : 0 ≤ th.orderRateWindowSecs)
    (es : List (MonitorEvent × ℚ)) (hasc : Ascending es) (count : ℕ) (t : ℚ) :
    (.orderRate count, t) ∈ (es.foldl (step th) {}).alarms ↔
      ∃ pre post, es = pre ++ (.orderRate, t) :: post ∧
        (pre.foldl (step th) {}).active = false ∧
        th.orderRateLimit < (orderTimes pre).countP (t - th.orderRateWindowSecs ≤ ·) ∧
        count = (orderTimes pre).countP (t - th.orderRateWindowSecs ≤ ·) := by
  have hpass : ∀ pre post, es = pre ++ (.orderRate, t) :: post →
      Ascending pre ∧ ∀ e ∈ pre, e.2 ≤ t := by
    rintro pre post rfl
    obtain ⟨hpre, -, hlater⟩ := List.pairwise_append.mp hasc
    exact ⟨hpre, fun e he => hlater e he (.orderRate, t) List.mem_cons_self⟩
  rw [mem_alarms]
  refine (or_iff_right List.not_mem_nil).trans ⟨?_, ?_⟩
  · intro ⟨pre, e, post, heq, hraised⟩
    have he : e = .orderRate := by
      have hauthor := activatedBy_author hraised
      cases e <;> simp_all [author, Alarm.activatedBy]
    subst he
    obtain ⟨hpre, hpast⟩ := hpass pre post heq
    obtain ⟨hoff, hlimit, hcount⟩ := (orderRate_raised hwindow hpre hpast _).mp hraised
    exact ⟨pre, post, heq, hoff, hlimit, Alarm.orderRate.inj hcount⟩
  · intro ⟨pre, post, heq, hoff, hlimit, hcount⟩
    obtain ⟨hpre, hpast⟩ := hpass pre post heq
    exact ⟨pre, .orderRate, post, heq,
      (orderRate_raised hwindow hpre hpast _).mpr ⟨hoff, hlimit, by rw [hcount]⟩⟩

/-- Twenty-one orders at once, and the next pass. -/
def burst : List (MonitorEvent × ℚ) := List.replicate 21 (.order, 1) ++ [(.orderRate, 6)]

theorem order_rate_alarm_burst : (.orderRate 21, 6) ∈ (burst.foldl (step {}) {}).alarms :=
  (order_rate_alarm_iff {} (by norm_num) burst (by unfold Ascending burst; decide +kernel) 21 6).mpr
    ⟨List.replicate 21 (.order, 1), [], rfl, by decide +kernel, by decide +kernel,
      by decide +kernel⟩

def Pings (_ : World) (e : MonitorEvent) : Prop := e = .brokerPing

/-- What sets the clock of a market: its ticks, and once it has one, a pass that sees the switch
cleared. -/
def Refreshes (market : String) (w : World) : MonitorEvent → Prop
  | .dataTick m => m.toUpper = market
  | .consumerLag => w.monitor.SeesClearing w.active ∧ w.monitor.lastTick.value market ≠ none
  | _ => False

theorem pingField (th : Thresholds) :
    Stamped.Field (step th) (fun w => w.monitor.lastBrokerPing) Pings where
  touch w e t h := by
    rw [Pings] at h
    subst h
    rfl
  keep w e t h := by
    cases e with
    | brokerPing => exact absurd rfl h
    | orderRate =>
      simp only [step, observe, KillSwitchMonitor.monitorOrderRate]
      split <;> rfl
    | _ => rfl

theorem tickField (th : Thresholds) (market : String) :
    Stamped.Field (step th) (fun w => w.monitor.lastTick.value market) (Refreshes market) where
  touch w e t h := by
    cases e with
    | dataTick m =>
      rw [Refreshes] at h
      change (w.monitor.lastTick.assign m.toUpper t).value market = some t
      rw [h, Dict.value_assign_self]
    | consumerLag =>
      obtain ⟨hclear, hknown⟩ := h
      obtain ⟨u, hu⟩ := Option.ne_none_iff_exists'.mp hknown
      simp only [step, observe, KillSwitchMonitor.monitorConsumerLag, if_pos hclear,
        Dict.value_mapValues, hu, Option.map_some]
    | _ => cases h
  keep w e t h := by
    cases e with
    | dataTick m => exact Dict.value_assign_of_ne (Ne.symm h)
    | consumerLag =>
      simp only [step, observe, KillSwitchMonitor.monitorConsumerLag]
      split
      · next hclear =>
        have hnone : w.monitor.lastTick.value market = none := by
          by_contra hknown
          exact h ⟨hclear, hknown⟩
        rw [Dict.value_mapValues, hnone]
        rfl
      · rfl
    | orderRate =>
      simp only [step, observe, KillSwitchMonitor.monitorOrderRate]
      split <;> rfl
    | _ => rfl

theorem brokerConnected_eq (th : Thresholds) (es : List (MonitorEvent × ℚ)) :
    (es.foldl (step th) {}).monitor.brokerConnected =
      (es.foldl (step th) {}).monitor.lastBrokerPing.isSome := by
  induction es using List.reverseRecOn with
  | nil => rfl
  | append_singleton es last ih =>
    obtain ⟨e, t⟩ := last
    rw [List.foldl_append, List.foldl_cons, List.foldl_nil]
    cases e with
    | brokerPing => rfl
    | orderRate =>
      simp only [step, observe, KillSwitchMonitor.monitorOrderRate]
      split
      · exact ih
      · exact ih
    | _ => exact ih

/-- One pass of the broker monitor. -/
theorem brokerConnectivity_raised {th : Thresholds} {es : List (MonitorEvent × ℚ)} {t : ℚ}
    (hasc : Ascending es) :
    (∃ alarm, ((es.foldl (step th) {}).observe th (.brokerConnectivity, t)).2 = some alarm) ↔
      (es.foldl (step th) {}).active = false ∧
      (∃ u, TouchedAt (step th) Pings {} es u) ∧
      ∀ u, TouchedAt (step th) Pings {} es u → th.brokerTimeoutSecs < t - u := by
  rw [← (pingField th).old_iff (fun u => th.brokerTimeoutSecs < t - u) rfl hasc
    fun u v hvu hu => hu.trans_le (sub_le_sub_left hvu t)]
  simp only [observe, KillSwitchMonitor.monitorBrokerConnectivity, brokerConnected_eq]
  cases hactive : (es.foldl (step th) {}).active with
  | true => simp
  | false =>
    cases hping : (es.foldl (step th) {}).monitor.lastBrokerPing with
    | none => simp
    | some u => simp

/-- A pass of the consumer-lag monitor, against the clocks of the markets. -/
theorem consumerLag_pass {th : Thresholds} (htimeout : 0 ≤ th.consumerLagStaleSecs)
    (m : KillSwitchMonitor) (active : Bool) (t : ℚ) :
    (∃ alarm, (m.monitorConsumerLag th active t).2 = some alarm) ↔
      (active = false ∧ m.ksWasActive = false) ∧
      (isMarketHours t = true ∧ th.startupGraceSecs ≤ t - th.startTime) ∧
      ∃ market u, m.lastTick.value market = some u ∧ th.consumerLagStaleSecs < t - u := by
  rw [KillSwitchMonitor.monitorConsumerLag]
  dsimp only
  by_cases hquiet : active = true ∨ isMarketHours t = false ∨ t - th.startTime < th.startupGraceSecs
  · rw [if_pos hquiet]
    refine iff_of_false nofun fun ⟨⟨hoff, _⟩, ⟨hhours, hgrace⟩, _⟩ => ?_
    obtain h | h | h := hquiet
    · rw [hoff] at h
      cases h
    · rw [hhours] at h
      cases h
    · exact absurd h (not_lt.mpr hgrace)
  · rw [if_neg hquiet]
    obtain ⟨hon, hrest⟩ := not_or.mp hquiet
    obtain ⟨hclosed, hearly⟩ := not_or.mp hrest
    have hoff : active = false := Bool.not_eq_true _ ▸ hon
    have hhours : isMarketHours t = true := Bool.not_eq_false _ ▸ hclosed
    have hfound : (∃ alarm, ((if m.SeesClearing active then m.lastTick.mapValues fun _ => t
          else m.lastTick).rows.find? fun row => th.consumerLagStaleSecs < t - row.2).map
            (fun row => Alarm.consumerLag row.1 (t - row.2)) = some alarm) ↔
        ∃ row ∈ (if m.SeesClearing active then m.lastTick.mapValues fun _ => t
          else m.lastTick).rows, th.consumerLagStaleSecs < t - row.2 := by
      rw [← Option.isSome_iff_exists, Option.isSome_map, List.find?_isSome]
      simp only [decide_eq_true_eq]
    rw [hfound]
    by_cases hclear : m.SeesClearing active
    · rw [if_pos hclear]
      refine iff_of_false ?_ fun h => ?_
      · intro ⟨row, hrow, hstale⟩
        obtain ⟨old, -, rfl⟩ := List.mem_map.mp hrow
        rw [sub_self] at hstale
        exact absurd hstale (not_lt.mpr htimeout)
      · rw [hclear.1] at h
        exact Bool.noConfusion h.1.2
    · rw [if_neg hclear]
      have hwas : m.ksWasActive = false := by
        rw [← Bool.not_eq_true]
        exact fun hwas => hclear ⟨hwas, hoff⟩
      constructor
      · intro ⟨row, hrow, hstale⟩
        exact ⟨⟨hoff, hwas⟩, ⟨hhours, not_lt.mp hearly⟩, row.1, row.2,
          Dict.value_eq_some_iff.mpr hrow, hstale⟩
      · intro ⟨_, _, market, u, hvalue, hstale⟩
        exact ⟨(market, u), Dict.value_eq_some_iff.mp hvalue, hstale⟩

/-- One pass of the consumer-lag monitor. -/
theorem consumerLag_raised {th : Thresholds} (htimeout : 0 ≤ th.consumerLagStaleSecs)
    {es : List (MonitorEvent × ℚ)} {t : ℚ} (hasc : Ascending es) :
    (∃ alarm, ((es.foldl (step th) {}).observe th (.consumerLag, t)).2 = some alarm) ↔
      ((es.foldl (step th) {}).active = false ∧
        (es.foldl (step th) {}).monitor.ksWasActive = false) ∧
      (isMarketHours t = true ∧ th.startupGraceSecs ≤ t - th.startTime) ∧
      ∃ market, (∃ u, TouchedAt (step th) (Refreshes market) {} es u) ∧
        ∀ u, TouchedAt (step th) (Refreshes market) {} es u → th.consumerLagStaleSecs < t - u := by
  have hstart : ∀ market, ({} : World).monitor.lastTick.value market = none := fun _ => rfl
  have hold : ∀ market, _ ↔ _ := fun market =>
    (tickField th market).old_iff (fun u => th.consumerLagStaleSecs < t - u) (hstart market) hasc
      fun u v hvu hu => hu.trans_le (sub_le_sub_left hvu t)
  simp only [← hold, observe]
  exact consumerLag_pass htimeout _ _ t

/-- The alarms of one monitor are those of its passes. -/
theorem alarm_by_iff {th : Thresholds} {es : List (MonitorEvent × ℚ)} {t : ℚ} {by_ : String}
    {e : MonitorEvent} (honly : ∀ e', author e' = some by_ → e' = e) (he : author e = some by_) :
    (∃ alarm, alarm.activatedBy = by_ ∧ (alarm, t) ∈ (es.foldl (step th) {}).alarms) ↔
      ∃ pre post, es = pre ++ (e, t) :: post ∧
        ∃ alarm, ((pre.foldl (step th) {}).observe th (e, t)).2 = some alarm := by
  simp only [mem_alarms]
  constructor
  · intro ⟨alarm, hby, hmem⟩
    obtain hnil | ⟨pre, e', post, heq, hraised⟩ := hmem
    · cases hnil
    · have hself : e' = e := honly e' (by rw [activatedBy_author hraised, hby])
      subst hself
      exact ⟨pre, post, heq, alarm, hraised⟩
  · intro ⟨pre, post, heq, alarm, hraised⟩
    have hby : some alarm.activatedBy = some by_ := (activatedBy_author hraised).symm.trans he
    exact ⟨alarm, Option.some.inj hby, .inr ⟨pre, e, post, heq, hraised⟩⟩

/-- The broker monitor raises an alarm at a pass exactly if the switch is off, a ping has come and
every ping is older than the timeout. The consumer-lag monitor raises one exactly if the switch is
off and was off at its last pass, in market hours and after the grace period, and for some market
that has ticked every tick, and every pass that saw the switch cleared, is older than the
timeout. -/
theorem silence_alarm_iff (th : Thresholds) (htimeout : 0 ≤ th.consumerLagStaleSecs)
    (es : List (MonitorEvent × ℚ)) (hasc : Ascending es) (t : ℚ) :
    ((∃ alarm, alarm.activatedBy = "broker_connectivity_monitor" ∧
        (alarm, t) ∈ (es.foldl (step th) {}).alarms) ↔
      ∃ pre post, es = pre ++ (.brokerConnectivity, t) :: post ∧
        (pre.foldl (step th) {}).active = false ∧
        (∃ u, TouchedAt (step th) Pings {} pre u) ∧
        ∀ u, TouchedAt (step th) Pings {} pre u → th.brokerTimeoutSecs < t - u) ∧
    ((∃ alarm, alarm.activatedBy = "consumer_lag_monitor" ∧
        (alarm, t) ∈ (es.foldl (step th) {}).alarms) ↔
      ∃ pre post, es = pre ++ (.consumerLag, t) :: post ∧
        ((pre.foldl (step th) {}).active = false ∧
          (pre.foldl (step th) {}).monitor.ksWasActive = false) ∧
        (isMarketHours t = true ∧ th.startupGraceSecs ≤ t - th.startTime) ∧
        ∃ market, (∃ u, TouchedAt (step th) (Refreshes market) {} pre u) ∧
          ∀ u, TouchedAt (step th) (Refreshes market) {} pre u →
            th.consumerLagStaleSecs < t - u) := by
  have hpre : ∀ {pre post e}, es = pre ++ (e, t) :: post → Ascending pre := by
    rintro pre post e rfl
    exact (List.pairwise_append.mp hasc).1
  constructor
  · rw [alarm_by_iff (e := .brokerConnectivity) (by intro e; cases e <;> simp [author]) rfl]
    refine exists₂_congr fun pre post => and_congr_right fun heq => ?_
    exact brokerConnectivity_raised (hpre heq)
  · rw [alarm_by_iff (e := .consumerLag) (by intro e; cases e <;> simp [author]) rfl]
    refine exists₂_congr fun pre post => and_congr_right fun heq => ?_
    exact consumerLag_raised htimeout (hpre heq)

/-- One tick at a quarter to ten, and a pass at ten. -/
def silence : List (MonitorEvent × ℚ) := [(.dataTick "nse", 35100), (.consumerLag, 36000)]

theorem silence_alarm_nse : ∃ alarm, alarm.activatedBy = "consumer_lag_monitor" ∧
    (alarm, 36000) ∈ (silence.foldl (step {}) {}).alarms := by
  refine (silence_alarm_iff {} (by norm_num) silence (by unfold Ascending silence; decide +kernel)
    36000).2.mpr ⟨[(.dataTick "nse", 35100)], [], rfl, ⟨rfl, rfl⟩, by decide +kernel, "NSE", ?_, ?_⟩
  · exact ⟨35100, [], .dataTick "nse", [], rfl, (by decide +kernel : "nse".toUpper = "NSE")⟩
  · intro u hu
    obtain ⟨e, he⟩ := hu.mem
    obtain ⟨-, rfl⟩ := Prod.mk.inj (List.mem_singleton.mp he)
    norm_num

end World
end QuantEmbrace.AutoTriggers
