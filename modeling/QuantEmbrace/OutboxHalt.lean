import QuantEmbrace.LocalOutbox

/-! Of a halt after failed deliveries nothing is lost as long as a row is deleted after its
acknowledgement and the halt is the first of its process. -/
namespace QuantEmbrace.KafkaOutbox
open GuardedRun Journal

def Row.IsKillSwitch (row : Row) : Prop :=
  row.topic = killSwitchTopic ∧ row.value.lookup "event_type" = some "KILL_SWITCH_ACTIVE"

instance (row : Row) : Decidable row.IsKillSwitch := inferInstanceAs (Decidable (_ ∧ _))

/-- What the entries have to be, given the older ones: rows are produced in the order in which they
were stored and deleted after their acknowledgement, and the failure that reaches the threshold
halts and stores an event. -/
def Law (cfg : Config) (older : List Entry) : Entry → Prop
  | .produced row => (∀ r, .produced r ∈ older → r.id ≤ row.id) ∧
      ∀ r, .stored r ∈ older → r.id < row.id → .produced r ∈ older
  | .deleted row => .acknowledged row ∈ older
  | .failure count halted event => count = cfg.threshold → halted = true ∧
      ∃ r ∈ event, r.IsKillSwitch ∧ .stored r ∈ older
  | _ => True

/-- A failure that reaches the threshold finds the halt of this process still unused, with a
callback, an open outbox and room in it, and the process outlives the call. -/
def HaltReady (cfg : Config) (w : World) (killed : Bool) : Prop :=
  (w.consecutiveFailures + 1 : ℕ) = cfg.threshold →
    killed = false ∧ w.haltFired = false ∧ cfg.hasCallback = true ∧ w.isOpen = true ∧
      w.file.rows.length < cfg.maxEntries

/-- Between `send` and the deletion of a row comes its acknowledgement. -/
def Admits (cfg : Config) (w : World) : Event → Prop
  | .delete => w.isOpen = true → ∀ row ∈ w.sent, .acknowledged row ∈ w.journal
  | .deliveryFailed _ killed => HaltReady cfg w killed
  | .timedOut _ killed => cfg.publisher = .approved → HaltReady cfg w killed
  | _ => True

structure Drained (w : World) : Prop where
  batch : w.batch <+: w.file.rows
  sent : ∀ row ∈ w.sent, w.batch.head? = some row ∧ .produced row ∈ w.journal
  oldest : ∀ r, .produced r ∈ w.journal → ∀ x ∈ w.file.rows, r.id ≤ x.id
  accounted : ∀ r, .stored r ∈ w.journal → r ∈ w.file.rows ∨ .produced r ∈ w.journal
  stamped : ∀ r, .produced r ∈ w.journal → r.id < w.file.nextId

variable {cfg : Config} {w : World} {stamp : Stamp}

theorem drained_start (f : OutboxFile) : Drained (start f) := by
  have hstored {r : Row} (h : Entry.produced r ∈ (start f).journal) : False := by
    simp [start] at h
  refine ⟨List.nil_prefix, nofun, fun r h => (hstored h).elim, ?_, fun r h => (hstored h).elim⟩
  intro r h
  refine .inl ?_
  simpa [start] using h

/-- Neither the halt nor the counters touch what the drain works on. -/
theorem Drained.record {w' : World} (h : Drained w) (entries : List Entry)
    (hfile : w'.file = w.file) (hbatch : w'.batch = w.batch) (hsent : w'.sent = w.sent)
    (hjournal : w'.journal = entries ++ w.journal)
    (hentries : ∀ r, .produced r ∉ entries ∧ .stored r ∉ entries) : Drained w' := by
  have hproduced (r : Row) : .produced r ∈ w'.journal ↔ .produced r ∈ w.journal := by
    rw [hjournal, List.mem_append, or_iff_right (hentries r).1]
  have hstored (r : Row) : .stored r ∈ w'.journal ↔ .stored r ∈ w.journal := by
    rw [hjournal, List.mem_append, or_iff_right (hentries r).2]
  refine ⟨hfile ▸ hbatch ▸ h.batch, ?_, ?_, ?_, ?_⟩
  · rw [hsent, hbatch]
    simpa only [hproduced] using h.sent
  · simpa only [hproduced, hfile] using h.oldest
  · simpa only [hproduced, hstored, hfile] using h.accounted
  · simpa only [hproduced, hfile] using h.stamped

theorem Drained.enqueue (h : Drained w) (topic key : String) (value : Payload) (now : ℤ) :
    Drained (w.enqueue cfg topic key value now).1 := by
  rw [World.enqueue]
  split
  · exact h
  split
  · exact h.record [.overflow] rfl rfl rfl rfl (by simp)
  refine ⟨h.batch.trans (List.prefix_append _ _), fun row hrow => ?_, ?_, ?_, ?_⟩
  · obtain ⟨hhead, hproduced⟩ := h.sent row hrow
    exact ⟨hhead, List.mem_cons_of_mem _ hproduced⟩
  · intro r hr x hx
    have hr : .produced r ∈ w.journal := by simpa using hr
    obtain hx | hx := List.mem_append.mp hx
    · exact h.oldest r hr x hx
    · obtain rfl := List.mem_singleton.mp hx
      exact (h.stamped r hr).le
  · intro r hr
    obtain heq | hr := List.mem_cons.mp hr
    · cases heq
      exact .inl (List.mem_append_right _ (List.mem_singleton_self _))
    · exact (h.accounted r hr).imp (List.mem_append_left _) (List.mem_cons_of_mem _)
  · intro r hr
    have hr : .produced r ∈ w.journal := by simpa using hr
    exact (h.stamped r hr).trans (Nat.lt_succ_self _)

/-- A pass that is over, or was never begun -/
theorem Drained.idle {w' : World} (h : Drained w) (hfile : w'.file = w.file)
    (hbatch : w'.batch <+: w.file.rows) (hsent : w'.sent = none)
    (hjournal : w'.journal = w.journal) : Drained w' := by
  refine ⟨hfile ▸ hbatch, by simp [hsent], ?_, ?_, ?_⟩
  · simpa only [hjournal, hfile] using h.oldest
  · simpa only [hjournal, hfile] using h.accounted
  · simpa only [hjournal, hfile] using h.stamped

theorem Drained.recordFailure (h : Drained w) (killed : Bool) :
    Drained (recordFailure cfg stamp killed w) := by
  rw [KafkaOutbox.recordFailure]
  split
  · split
    · have hrestart : Drained w.restart := h.idle rfl List.nil_prefix rfl rfl
      exact hrestart.record [.failure _ _ _] rfl rfl rfl rfl (by simp)
    · have hcount : Drained { w with consecutiveFailures := w.consecutiveFailures + 1,
                                     haltFired := true } :=
        h.record [] rfl rfl rfl rfl (by simp)
      have hstored : Drained (World.enqueueKillSwitch cfg _ stamp).1 := hcount.enqueue _ _ _ _
      exact hstored.record [.failure _ _ _] rfl rfl rfl rfl (by simp)
  · exact h.record [.failure _ _ _] rfl rfl rfl rfl (by simp)

/-- The row at the head of the batch is the first one of the file. -/
theorem Drained.head (h : Drained w) {row : Row} {rest : List Row}
    (hbatch : w.batch = row :: rest) :
    ∃ later, w.file.rows = row :: later ∧ rest <+: later := by
  have hprefix := h.batch
  rw [hbatch] at hprefix
  cases hrows : w.file.rows with
  | nil => simp [hrows] at hprefix
  | cons r later =>
    rw [hrows] at hprefix
    obtain ⟨rfl, hrest⟩ := List.cons_prefix_cons.mp hprefix
    exact ⟨later, rfl, hrest⟩

theorem Drained.produce (h : Drained w) {row : Row} {rest : List Row}
    (hbatch : w.batch = row :: rest) :
    Drained { w with sent := some row, journal := .produced row :: w.journal } := by
  obtain ⟨later, hrows, -⟩ := h.head hbatch
  have hmem : row ∈ w.file.rows := by rw [hrows]; exact List.mem_cons_self
  refine ⟨h.batch, ?_, ?_, ?_, ?_⟩
  · rintro r hr
    cases hr
    exact ⟨by rw [hbatch]; rfl, List.mem_cons_self⟩
  · intro r hr x hx
    obtain heq | hr := List.mem_cons.mp hr
    · cases heq
      exact OutboxFile.head_le hrows x hx
    · exact h.oldest r hr x hx
  · intro r hr
    have hr : .stored r ∈ w.journal := by simpa using hr
    exact (h.accounted r hr).imp_right (List.mem_cons_of_mem _)
  · intro r hr
    obtain heq | hr := List.mem_cons.mp hr
    · cases heq
      exact w.file.fresh row hmem
    · exact h.stamped r hr

theorem Drained.delete (h : Drained w) {row : Row} (hsent : w.sent = some row) :
    Drained { w with
      file := w.file.delete row.id
      batch := w.batch.tail
      sent := none
      journal := .deleted row :: w.journal } := by
  obtain ⟨hhead, hproduced⟩ := h.sent row hsent
  obtain ⟨rest, hbatch⟩ : ∃ rest, w.batch = row :: rest := List.head?_eq_some_iff.mp hhead
  obtain ⟨later, hrows, hrest⟩ := h.head hbatch
  have hdelete : (w.file.delete row.id).rows = later := OutboxFile.delete_head hrows
  refine ⟨?_, nofun, ?_, ?_, ?_⟩
  · rw [hdelete, hbatch]
    exact hrest
  · intro r hr x hx
    rw [hdelete] at hx
    refine h.oldest r (by simpa using hr) x ?_
    rw [hrows]
    exact List.mem_cons_of_mem _ hx
  · intro r hr
    have hr : .stored r ∈ w.journal := by simpa using hr
    rw [hdelete]
    obtain hfile | hr := h.accounted r hr
    · rw [hrows] at hfile
      obtain rfl | hlater := List.mem_cons.mp hfile
      · exact .inr (List.mem_cons_of_mem _ hproduced)
      · exact .inl hlater
    · exact .inr (List.mem_cons_of_mem _ hr)
  · intro r hr
    exact h.stamped r (by simpa using hr)

theorem Drained.step (h : Drained w) (e : Event) : Drained (step cfg w e) := by
  cases e with
  | buffered topic key value now => exact h.enqueue topic key value now
  | delivered => exact h.record [] rfl rfl rfl rfl (by simp)
  | deliveryFailed stamp killed => exact h.recordFailure killed
  | timedOut stamp killed =>
    rw [KafkaOutbox.step]
    split
    · exact h.recordFailure killed
    · exact h
  | drain =>
    rw [KafkaOutbox.step]
    split
    · next hidle => exact h.idle rfl (List.take_prefix _ _) hidle.2.2 rfl
    · exact h
  | produce accepted =>
    rw [KafkaOutbox.step]
    split
    · next hbatch hsent =>
      split
      · exact h.produce hbatch
      · exact h.idle rfl List.nil_prefix hsent rfl
    · exact h
  | delete =>
    rw [KafkaOutbox.step]
    split
    · next hsent =>
      split
      · exact h.delete hsent
      · exact h.idle rfl List.nil_prefix rfl rfl
    · exact h
  | acknowledged row =>
    rw [KafkaOutbox.step]
    split
    · exact h.record [.acknowledged row] rfl rfl rfl rfl (by simp)
    · exact h
  | stopped => exact h.record [] rfl rfl rfl rfl (by simp)
  | restarted => exact h.idle rfl List.nil_prefix rfl rfl

theorem justified_enqueue {topic key : String} {value : Payload} {now : ℤ} :
    Justified (Law cfg) (w.enqueue cfg topic key value now).1.journal ↔
      Justified (Law cfg) w.journal := by
  rw [World.enqueue]
  split
  · exact Iff.rfl
  split
  · exact justified_cons.trans (and_iff_right trivial)
  · exact justified_cons.trans (and_iff_right trivial)

/-- The event is stored exactly where the outbox is open and has room. -/
theorem enqueueKillSwitch_event : (∃ r ∈ (w.enqueueKillSwitch cfg stamp).2, r.IsKillSwitch ∧
    .stored r ∈ (w.enqueueKillSwitch cfg stamp).1.journal) ↔
      w.isOpen = true ∧ w.file.rows.length < cfg.maxEntries := by
  rw [World.enqueueKillSwitch, World.enqueue]
  split
  · next hclosed => simp_all
  split
  · next hfull => simp [hfull]
  · next hopen hroom =>
    rw [Bool.not_eq_true', Bool.not_eq_false] at hopen
    refine iff_of_true ⟨_, rfl, ⟨rfl, rfl⟩, List.mem_cons_self⟩ ⟨hopen, Int.not_le.mp hroom⟩

theorem justified_recordFailure (killed : Bool) :
    Justified (Law cfg) (recordFailure cfg stamp killed w).journal ↔
      HaltReady cfg w killed ∧ Justified (Law cfg) w.journal := by
  rw [recordFailure, HaltReady]
  split
  · next hfires =>
    split
    · next hkilled =>
      refine justified_cons.trans (and_congr_left fun _ => imp_congr_right fun _ => ?_)
      simp [hkilled]
    · next hkilled =>
      refine justified_cons.trans (and_congr ?_ justified_enqueue)
      refine imp_congr_right fun _ => ?_
      rw [enqueueKillSwitch_event]
      simp [hkilled, hfires.2]
  · next hsilent =>
    refine justified_cons.trans (and_congr_left fun _ => imp_congr_right fun hreached => ?_)
    refine iff_of_false (by simp) fun h => hsilent ⟨Int.le_of_eq hreached.symm, h.2.1⟩

/-- One step adds entries that the law allows exactly where it is admitted. -/
theorem justified_step (h : Drained w) (e : Event) :
    Justified (Law cfg) (step cfg w e).journal ↔
      Admits cfg w e ∧ Justified (Law cfg) w.journal := by
  cases e with
  | buffered topic key value now => exact justified_enqueue.trans (and_iff_right trivial).symm
  | delivered => exact (and_iff_right trivial).symm
  | deliveryFailed stamp killed => exact justified_recordFailure killed
  | timedOut stamp killed =>
    rw [step, Admits]
    split
    · next hpublisher =>
      rw [forall_prop_of_true hpublisher]
      exact justified_recordFailure killed
    · next hpublisher => simp [hpublisher]
  | drain =>
    rw [step]
    split <;> exact (and_iff_right trivial).symm
  | produce accepted =>
    rw [step]
    split
    · next row rest hbatch hsent =>
      split
      · obtain ⟨later, hrows, -⟩ := h.head hbatch
        have hmem : row ∈ w.file.rows := by rw [hrows]; exact List.mem_cons_self
        refine justified_cons.trans (and_congr_left fun _ => iff_of_true ⟨?_, ?_⟩ trivial)
        · exact fun r hr => h.oldest r hr row hmem
        · intro r hr hlt
          obtain hfile | hproduced := h.accounted r hr
          · exact absurd (OutboxFile.head_le hrows r hfile) (not_le.mpr hlt)
          · exact hproduced
      · exact (and_iff_right trivial).symm
    · exact (and_iff_right trivial).symm
  | delete =>
    rw [step, Admits]
    split
    · next row hsent =>
      split
      · next hopen =>
        refine justified_cons.trans (and_congr_left fun _ => ?_)
        simp [Law, hopen, hsent]
      · next hclosed => exact (and_iff_right fun hopen => absurd hopen hclosed).symm
    · next hsent => simp [hsent]
  | acknowledged row =>
    rw [step]
    split
    · exact justified_cons
    · exact (and_iff_right trivial).symm
  | stopped => exact (and_iff_right trivial).symm
  | restarted => exact (and_iff_right trivial).symm

theorem justified_start (f : OutboxFile) : Justified (Law cfg) (start f).journal := by
  change Justified (Law cfg) (f.rows.map Entry.stored).reverse
  rw [← List.map_reverse]
  induction f.rows.reverse with
  | nil => exact justified_nil
  | cons r rows ih => exact justified_cons.mpr ⟨trivial, ih⟩

/-- In a run nothing is lost exactly where every step is admitted. -/
theorem halt_never_lost_iff (cfg : Config) (f : OutboxFile) (es : List Event) :
    Justified (Law cfg) (es.foldl (step cfg) (start f)).journal ↔
      StepsMeet (step cfg) (Admits cfg) (start f) es := by
  have hrun := foldl_iff (P := fun w => Justified (Law cfg) w.journal) (I := Drained)
    (fun _ e h => h.step e) (fun _ e h => justified_step h e) (drained_start f) es
  exact hrun.trans (and_iff_left (justified_start f))

def emptyFile : OutboxFile := ⟨[], 1, List.Pairwise.nil, nofun⟩

def failure : Event :=
  .deliveryFailed ⟨"e1", "t1", "2026-01-05T04:00:00+00:00", 1767585600⟩ false

/-- The event of a halt leaves the outbox without an acknowledgement, and a second outage halts
nothing. -/
theorem halt_lost :
    ¬ Justified (Law ⟨.signal, true, 3, 1000⟩) (([failure, failure, failure, .drain, .produce true,
      .delete].foldl (step ⟨.signal, true, 3, 1000⟩) (start emptyFile)).journal) ∧
    ¬ Justified (Law ⟨.signal, true, 3, 1000⟩) (([failure, failure, failure, .delivered, failure,
      failure, failure].foldl (step ⟨.signal, true, 3, 1000⟩) (start emptyFile)).journal) := by
  constructor
  · intro h
    have hdeleted : Entry.acknowledged _ ∈ _ := (justified_cons.mp h).1
    exact absurd hdeleted (by decide)
  · intro h
    have hreached := (justified_cons.mp h).1
    exact absurd (hreached rfl).1 (by decide)

end QuantEmbrace.KafkaOutbox
