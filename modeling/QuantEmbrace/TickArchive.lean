import QuantEmbrace.TickPublisher
import QuantEmbrace.Lib.GuardedRun
import QuantEmbrace.Lib.UnderWay
import Mathlib.Data.List.Nodup
import Mathlib.Data.List.Range

/-! The archive of ticks. Batches of the buffer are uploaded as objects, several at a time, and a
batch whose upload fails goes back in front of what came meanwhile. -/
namespace QuantEmbrace.DataIngestion
open GuardedRun UnderWay

/-- A line of an object. -/
structure TickRecord where
  symbol : String
  market : String
  lastPrice : ℚ
  bid : Option ℚ
  ask : Option ℚ
  volume : ℤ
  timestamp : ℚ
  broker : String
  deriving DecidableEq, Repr

def tickRecord (tick : BrokerTick) : TickRecord where
  symbol := tick.symbol
  market := tick.market.value
  lastPrice := tick.lastPrice
  bid := tick.bid
  ask := tick.ask
  volume := tick.volume
  timestamp := tick.timestamp
  broker := tick.broker

/-- A record under the number of the call that wrote it; the number is for the statements. -/
structure Numbered where
  number : ℕ
  record : TickRecord
  deriving DecidableEq, Repr

/-- The texts of date and hour follow from the instant, which has microseconds. -/
structure ObjectKey where
  keyPrefix : String
  market : String
  instant : ℕ
  deriving DecidableEq, Repr

structure Upload where
  key : ObjectKey
  batch : List Numbered
  deriving DecidableEq, Repr

structure ArchiveConfig where
  batchSize : ℤ := 1000
  keyPrefix : String := "ticks"

/-- The buffer, the uploads under way and the objects in the bucket. `written` and `instants` are
records for the statements: all ticks so far, and the instants at which a flush took a batch. -/
structure S3Writer where
  buffer : List Numbered := []
  uploads : List Upload := []
  objects : List Upload := []
  written : List Numbered := []
  instants : List ℕ := []

/-- What happens next: a call of the writer, with the time of the clock, or the end of an upload. -/
inductive ArchiveStep where
  | writeTick (tick : BrokerTick) (now : ℕ)
  | flush (now : ℕ)
  | uploaded (i : ℕ)
  | failed (i : ℕ)
  deriving DecidableEq, Repr

namespace S3Writer

def flush (config : ArchiveConfig) (now : ℕ) (s : S3Writer) : S3Writer :=
  match s.buffer with
  | [] => s
  | first :: _ =>
    { s with
      buffer := []
      uploads := s.uploads ++ [⟨⟨config.keyPrefix, first.record.market, now⟩, s.buffer⟩]
      instants := now :: s.instants }

/-- The buffer takes the record of a tick. -/
def append (tick : BrokerTick) (s : S3Writer) : S3Writer :=
  let numbered : Numbered := ⟨s.written.length, tickRecord tick⟩
  { s with
    buffer := s.buffer ++ [numbered]
    written := s.written ++ [numbered] }

def Full (config : ArchiveConfig) (s : S3Writer) : Prop :=
  config.batchSize ≤ (s.buffer.length : ℤ)

instance (config : ArchiveConfig) (s : S3Writer) : Decidable (s.Full config) :=
  inferInstanceAs (Decidable (config.batchSize ≤ (s.buffer.length : ℤ)))

def writeTick (config : ArchiveConfig) (tick : BrokerTick) (now : ℕ) (s : S3Writer) : S3Writer :=
  let s' := s.append tick
  if s'.Full config then s'.flush config now else s'

/-- An object under a key that is there already takes its place. -/
def uploaded (i : ℕ) (s : S3Writer) : S3Writer :=
  match s.uploads[i]? with
  | none => s
  | some upload =>
    { s with
      uploads := s.uploads.eraseIdx i
      objects := s.objects.filter (fun o => o.key ≠ upload.key) ++ [upload] }

def failed (i : ℕ) (s : S3Writer) : S3Writer :=
  match s.uploads[i]? with
  | none => s
  | some upload =>
    { s with
      uploads := s.uploads.eraseIdx i
      buffer := upload.batch ++ s.buffer }

def step (config : ArchiveConfig) (s : S3Writer) : ArchiveStep → S3Writer
  | .writeTick tick now => s.writeTick config tick now
  | .flush now => s.flush config now
  | .uploaded i => s.uploaded i
  | .failed i => s.failed i

def run (config : ArchiveConfig) (steps : List ArchiveStep) : S3Writer :=
  steps.foldl (step config) {}

/-- The ticks of one symbol are in the order in which they were written. -/
def InOrder (batch : List Numbered) : Prop :=
  batch.Pairwise fun a b => a.record.symbol = b.record.symbol → a.number < b.number

def OneMarket (batch : List Numbered) (market : String) : Prop :=
  ∀ a ∈ batch, a.record.market = market

/-- Batches under way and objects are of the market of their key, and they and the buffer are in
order. -/
structure WellFiled (s : S3Writer) : Prop where
  market : ∀ u ∈ s.uploads ++ s.objects, OneMarket u.batch u.key.market
  order : ∀ u ∈ s.uploads ++ s.objects, InOrder u.batch
  buffer : InOrder s.buffer

/-- Every place where a tick can be. -/
def places (s : S3Writer) : List Numbered :=
  s.buffer ++ s.uploads.flatMap Upload.batch ++ s.objects.flatMap Upload.batch

/-- Where a flush takes a batch, the batch is of one market. -/
def Sortable (s : S3Writer) : Prop :=
  ∀ a ∈ s.buffer, ∀ b ∈ s.buffer, a.record.market = b.record.market

/-- A flush finds ticks of one market, and a failed batch goes back in front of no older tick of
one of its symbols. -/
def Admits (config : ArchiveConfig) (s : S3Writer) : ArchiveStep → Prop
  | .writeTick tick _ => (s.append tick).Full config → (s.append tick).Sortable
  | .flush _ => s.Sortable
  | .uploaded _ => True
  | .failed i => ∀ upload, s.uploads[i]? = some upload → ∀ a ∈ upload.batch, ∀ b ∈ s.buffer,
      a.record.symbol = b.record.symbol → a.number < b.number

/-- A flush that takes a batch does so at an instant of its own. -/
def Fresh (config : ArchiveConfig) (s : S3Writer) : ArchiveStep → Prop
  | .writeTick tick now => (s.append tick).Full config → now ∉ s.instants
  | .flush now => s.buffer ≠ [] → now ∉ s.instants
  | _ => True

instance decidableFresh (config : ArchiveConfig) (s : S3Writer) :
    (e : ArchiveStep) → Decidable (s.Fresh config e)
  | .writeTick tick now =>
    inferInstanceAs (Decidable ((s.append tick).Full config → now ∉ s.instants))
  | .flush now => inferInstanceAs (Decidable (s.buffer ≠ [] → now ∉ s.instants))
  | .uploaded _ => .isTrue trivial
  | .failed _ => .isTrue trivial

variable {config : ArchiveConfig} {s : S3Writer} {tick : BrokerTick} {now i : ℕ} {upload : Upload}

theorem flush_of_nil (h : s.buffer = []) : s.flush config now = s := by
  rw [flush, h]

theorem flush_eq {first : Numbered} {rest : List Numbered} (h : s.buffer = first :: rest) :
    s.flush config now = { s with
      buffer := []
      uploads := s.uploads ++ [⟨⟨config.keyPrefix, first.record.market, now⟩, s.buffer⟩]
      instants := now :: s.instants } := by
  rw [flush, h]

theorem uploaded_eq (h : s.uploads[i]? = some upload) : s.uploaded i = { s with
    uploads := s.uploads.eraseIdx i
    objects := s.objects.filter (fun o => o.key ≠ upload.key) ++ [upload] } := by
  rw [uploaded, h]

theorem failed_eq (h : s.uploads[i]? = some upload) : s.failed i = { s with
    uploads := s.uploads.eraseIdx i
    buffer := upload.batch ++ s.buffer } := by
  rw [failed, h]

/-- What every step keeps: numbers ascend to the number of ticks, and what is anywhere was
written. -/
structure Counted (s : S3Writer) : Prop where
  numbers : s.written.map Numbered.number = List.range s.written.length
  placed : ∀ a ∈ s.places, a ∈ s.written

theorem Counted.lt (hs : Counted s) {a : Numbered} (h : a ∈ s.places) :
    a.number < s.written.length := by
  have hmem := List.mem_map_of_mem (f := Numbered.number) (hs.placed a h)
  rw [hs.numbers] at hmem
  exact List.mem_range.mp hmem

theorem Counted.append (hs : Counted s) (tick : BrokerTick) : Counted (s.append tick) := by
  refine ⟨?_, fun a ha => ?_⟩
  · change (s.written ++ [_]).map Numbered.number = List.range (s.written ++ [_]).length
    rw [List.map_append, hs.numbers, List.length_append, List.length_singleton, List.range_succ]
    rfl
  · change a ∈ s.buffer ++ [_] ++ s.uploads.flatMap Upload.batch ++ s.objects.flatMap _ at ha
    change a ∈ s.written ++ [_]
    simp only [List.mem_append] at ha ⊢
    obtain ((ha | ha) | ha) | ha := ha
    · exact .inl (hs.placed a (by simp [places, ha]))
    · exact .inr ha
    · exact .inl (hs.placed a (by simp only [places, List.mem_append]; exact .inl (.inr ha)))
    · exact .inl (hs.placed a (List.mem_append_right _ ha))

theorem flush_written (s : S3Writer) (config : ArchiveConfig) (now : ℕ) :
    (s.flush config now).written = s.written := by
  rw [flush]
  split <;> rfl

/-- A flush only moves ticks. -/
theorem flush_places (s : S3Writer) (config : ArchiveConfig) (now : ℕ) :
    (s.flush config now).places.Perm s.places := by
  cases h : s.buffer with
  | nil => rw [flush_of_nil h]
  | cons first rest =>
    rw [flush_eq h, places, places, List.flatMap_append, List.flatMap_singleton, List.nil_append]
    exact List.perm_append_comm.append_right _

theorem Counted.of_places {t : S3Writer} (hs : Counted s) (hwritten : t.written = s.written)
    (hplaces : ∀ a ∈ t.places, a ∈ s.places) : Counted t := by
  refine ⟨by rw [hwritten, hs.numbers], fun a ha => ?_⟩
  rw [hwritten]
  exact hs.placed a (hplaces a ha)

theorem failed_places (h : s.uploads[i]? = some upload) : (s.failed i).places.Perm s.places := by
  have hbatch := (perm_cons_eraseIdx h).flatMap_right Upload.batch
  rw [List.flatMap_cons] at hbatch
  rw [failed_eq h, places, places]
  refine List.Perm.append_right _ (.trans ?_ (hbatch.symm.append_left s.buffer))
  rw [← List.append_assoc]
  exact List.perm_append_comm.append_right _

/-- An upload that ends loses nothing but the object whose place it takes. -/
theorem uploaded_places (h : s.uploads[i]? = some upload) :
    (s.uploaded i).places.Perm (s.buffer ++ s.uploads.flatMap Upload.batch ++
      (s.objects.filter fun o => o.key ≠ upload.key).flatMap Upload.batch) := by
  have hbatch := (perm_cons_eraseIdx h).flatMap_right Upload.batch
  rw [List.flatMap_cons] at hbatch
  rw [uploaded_eq h, places, List.flatMap_append, List.flatMap_singleton, ← List.append_assoc]
  refine List.perm_append_comm.trans ?_
  rw [← List.append_assoc]
  refine List.Perm.append_right _ (.trans ?_ (hbatch.symm.append_left s.buffer))
  rw [← List.append_assoc, ← List.append_assoc]
  exact List.perm_append_comm.append_right _

theorem mem_places_of_uploaded (h : s.uploads[i]? = some upload) {a : Numbered}
    (ha : a ∈ (s.uploaded i).places) : a ∈ s.places := by
  obtain hmem | hmem := List.mem_append.mp ((uploaded_places h).mem_iff.mp ha)
  · exact List.mem_append_left _ hmem
  · obtain ⟨o, ho, hao⟩ := List.mem_flatMap.mp hmem
    exact List.mem_append_right _ (List.mem_flatMap.mpr ⟨o, List.mem_of_mem_filter ho, hao⟩)

theorem Counted.step (hs : Counted s) (config : ArchiveConfig) (e : ArchiveStep) :
    Counted (s.step config e) := by
  have flushed {s : S3Writer} (hs : Counted s) (now : ℕ) : Counted (s.flush config now) :=
    hs.of_places (s.flush_written config now) fun a ha =>
      (s.flush_places config now).mem_iff.mp ha
  cases e with
  | writeTick tick now =>
    rw [S3Writer.step, writeTick]
    split
    · exact flushed (hs.append tick) now
    · exact hs.append tick
  | flush now => exact flushed hs now
  | uploaded i =>
    cases h : s.uploads[i]? with
    | none => rwa [S3Writer.step, uploaded, h]
    | some upload =>
      exact hs.of_places (by rw [S3Writer.step, uploaded_eq h]) fun a ha =>
        mem_places_of_uploaded h ha
  | failed i =>
    cases h : s.uploads[i]? with
    | none => rwa [S3Writer.step, failed, h]
    | some upload =>
      exact hs.of_places (by rw [S3Writer.step, failed_eq h]) fun a ha =>
        (failed_places h).mem_iff.mp ha

theorem counted_start : Counted {} where
  numbers := rfl
  placed _ h := absurd h List.not_mem_nil

theorem WellFiled.append (hs : WellFiled s) (hc : Counted s) (tick : BrokerTick) :
    WellFiled (s.append tick) := by
  refine ⟨hs.market, hs.order, ?_⟩
  refine List.pairwise_append.mpr ⟨hs.buffer, List.pairwise_singleton .., fun a ha b hb _ => ?_⟩
  rw [List.mem_singleton.mp hb]
  exact hc.lt (List.mem_append_left _ (List.mem_append_left _ ha))

/-- A flush files its batch well exactly if the batch is of one market. -/
theorem wellFiled_flush_iff (hs : WellFiled s) :
    WellFiled (s.flush config now) ↔ s.Sortable := by
  cases h : s.buffer with
  | nil =>
    rw [flush_of_nil h]
    refine iff_of_true hs fun a ha => ?_
    rw [h] at ha
    cases ha
  | cons first rest =>
    have hfirst : first ∈ s.buffer := by rw [h]; exact List.mem_cons_self
    rw [flush_eq h]
    constructor
    · intro hnext a ha b hb
      have hone := hnext.market _
        (List.mem_append_left _ (List.mem_append_right _ (List.mem_singleton_self _)))
      exact (hone a ha).trans (hone b hb).symm
    · intro hone
      refine ⟨fun u hu => ?_, fun u hu => ?_, List.Pairwise.nil⟩
      · simp only [List.mem_append, List.mem_singleton] at hu
        obtain (hu | rfl) | hu := hu
        · exact hs.market u (List.mem_append_left _ hu)
        · exact fun a ha => hone a ha first hfirst
        · exact hs.market u (List.mem_append_right _ hu)
      · simp only [List.mem_append, List.mem_singleton] at hu
        obtain (hu | rfl) | hu := hu
        · exact hs.order u (List.mem_append_left _ hu)
        · exact hs.buffer
        · exact hs.order u (List.mem_append_right _ hu)

theorem WellFiled.uploaded (hs : WellFiled s) (h : s.uploads[i]? = some upload) :
    WellFiled (s.uploaded i) := by
  have hmem : upload ∈ s.uploads ++ s.objects :=
    List.mem_append_left _ (List.mem_of_getElem? h)
  have hsub : ∀ u ∈ (s.uploaded i).uploads ++ (s.uploaded i).objects,
      u ∈ s.uploads ++ s.objects := by
    intro u hu
    rw [uploaded_eq h] at hu
    simp only [List.mem_append, List.mem_singleton] at hu
    obtain hu | hu | rfl := hu
    · exact List.mem_append_left _ (List.mem_of_mem_eraseIdx hu)
    · exact List.mem_append_right _ (List.mem_of_mem_filter hu)
    · exact hmem
  refine ⟨fun u hu => hs.market u (hsub u hu), fun u hu => hs.order u (hsub u hu), ?_⟩
  rw [uploaded_eq h]
  exact hs.buffer

theorem wellFiled_failed_iff (hs : WellFiled s) (h : s.uploads[i]? = some upload) :
    WellFiled (s.failed i) ↔ ∀ a ∈ upload.batch, ∀ b ∈ s.buffer,
      a.record.symbol = b.record.symbol → a.number < b.number := by
  have hbatch : InOrder upload.batch :=
    hs.order upload (List.mem_append_left _ (List.mem_of_getElem? h))
  have hsub : ∀ u ∈ s.uploads.eraseIdx i ++ s.objects, u ∈ s.uploads ++ s.objects := by
    intro u hu
    exact List.mem_append.mpr ((List.mem_append.mp hu).imp_left List.mem_of_mem_eraseIdx)
  rw [failed_eq h]
  constructor
  · intro hnext
    exact (List.pairwise_append.mp hnext.buffer).2.2
  · intro hnewer
    refine ⟨fun u hu => hs.market u (hsub u hu), fun u hu => hs.order u (hsub u hu), ?_⟩
    exact List.pairwise_append.mpr ⟨hbatch, hs.buffer, hnewer⟩

theorem wellFiled_step_iff (hs : WellFiled s) (hc : Counted s) (e : ArchiveStep) :
    WellFiled (s.step config e) ↔ s.Admits config e := by
  cases e with
  | writeTick tick now =>
    have happend := hs.append hc tick
    by_cases hfull : (s.append tick).Full config
    · rw [step, writeTick, if_pos hfull, wellFiled_flush_iff happend]
      exact ⟨fun h _ => h, fun h => h hfull⟩
    · rw [step, writeTick, if_neg hfull]
      exact iff_of_true happend fun h => absurd h hfull
  | flush now => exact wellFiled_flush_iff hs
  | uploaded i =>
    refine iff_of_true ?_ trivial
    cases h : s.uploads[i]? with
    | none => rwa [step, uploaded, h]
    | some upload => exact hs.uploaded h
  | failed i =>
    cases h : s.uploads[i]? with
    | none =>
      rw [step, failed, h]
      refine iff_of_true hs fun upload hupload => ?_
      rw [h] at hupload
      cases hupload
    | some upload =>
      refine (wellFiled_failed_iff hs h).trans ⟨fun hn u hu => ?_, fun hn => hn upload h⟩
      rw [h] at hu
      cases hu
      exact hn

theorem wellFiled_start : WellFiled {} where
  market _ h := absurd h List.not_mem_nil
  order _ h := absurd h List.not_mem_nil
  buffer := List.Pairwise.nil

/-- Every tick written is in one place, and no two objects compete for a key. -/
structure Archived (s : S3Writer) : Prop where
  places : s.places.Perm s.written
  instants : ((s.uploads ++ s.objects).map fun u => u.key.instant).Nodup
  known : ∀ u ∈ s.uploads ++ s.objects, u.key.instant ∈ s.instants

theorem Archived.append (hs : Archived s) (tick : BrokerTick) : Archived (s.append tick) := by
  refine ⟨?_, hs.instants, hs.known⟩
  change (s.buffer ++ [_] ++ s.uploads.flatMap Upload.batch ++ _).Perm (s.written ++ [_])
  rw [List.append_assoc, List.append_assoc, List.singleton_append]
  refine List.perm_middle.trans (.trans ?_ (List.perm_append_singleton _ _).symm)
  rw [← List.append_assoc]
  exact hs.places.cons _

theorem Archived.flush (hs : Archived s) (h : s.buffer ≠ [] → now ∉ s.instants) :
    Archived (s.flush config now) := by
  have hplaces : (s.flush config now).places.Perm (s.flush config now).written := by
    rw [flush_written]
    exact (s.flush_places config now).trans hs.places
  cases hbuffer : s.buffer with
  | nil => rwa [flush_of_nil hbuffer]
  | cons first rest =>
    have hnew : now ∉ s.instants := h (by rw [hbuffer]; exact List.cons_ne_nil first rest)
    rw [flush_eq hbuffer] at hplaces ⊢
    refine ⟨hplaces, ?_, fun u hu => ?_⟩
    · rw [List.append_assoc, List.singleton_append]
      refine ((List.perm_middle.map _).nodup_iff).mpr ?_
      rw [List.map_cons, List.nodup_cons]
      refine ⟨fun hmem => ?_, hs.instants⟩
      obtain ⟨u, hu, hinstant⟩ := List.mem_map.mp hmem
      change u.key.instant = now at hinstant
      exact hnew (hinstant ▸ hs.known u hu)
    · simp only [List.mem_append, List.mem_singleton] at hu
      obtain (hu | rfl) | hu := hu
      · exact List.mem_cons_of_mem now (hs.known u (List.mem_append_left _ hu))
      · exact List.mem_cons_self
      · exact List.mem_cons_of_mem now (hs.known u (List.mem_append_right _ hu))

theorem Archived.uploaded (hs : Archived s) (h : s.uploads[i]? = some upload) :
    Archived (s.uploaded i) := by
  have hperm : (s.uploads ++ s.objects).Perm
      (upload :: (s.uploads.eraseIdx i ++ s.objects)) :=
    (perm_cons_eraseIdx h).append_right _
  have hinstants := (hperm.map _).nodup_iff.mp hs.instants
  rw [List.map_cons, List.nodup_cons] at hinstants
  -- no object has the key, so the new one takes nothing's place
  have hall : s.objects.filter (fun o => o.key ≠ upload.key) = s.objects := by
    refine List.filter_eq_self.mpr fun o ho => decide_eq_true fun hkey => ?_
    refine hinstants.1 (List.mem_map.mpr ⟨o, List.mem_append_right _ ho, ?_⟩)
    rw [hkey]
  have hplaces := uploaded_places h
  rw [hall] at hplaces
  have hmoved : (s.uploads.eraseIdx i ++ (s.objects ++ [upload])).Perm
      (s.uploads ++ s.objects) := by
    rw [← List.append_assoc]
    exact (List.perm_append_singleton _ _).trans hperm.symm
  refine ⟨?_, ?_, ?_⟩
  · rw [uploaded_eq h] at hplaces ⊢
    exact hplaces.trans hs.places
  · rw [uploaded_eq h, hall]
    exact (hmoved.map _).nodup_iff.mpr hs.instants
  · rw [uploaded_eq h, hall]
    exact fun u hu => hs.known u (hmoved.mem_iff.mp hu)

theorem Archived.failed (hs : Archived s) (h : s.uploads[i]? = some upload) :
    Archived (s.failed i) := by
  have hsub : (s.uploads.eraseIdx i ++ s.objects).Sublist (s.uploads ++ s.objects) :=
    (List.eraseIdx_sublist s.uploads i).append_right s.objects
  have hplaces := (failed_places h).trans hs.places
  rw [failed_eq h] at hplaces ⊢
  exact ⟨hplaces, (hsub.map _).nodup hs.instants, fun u hu => hs.known u (hsub.subset hu)⟩

theorem Archived.step (hs : Archived s) (e : ArchiveStep) (h : s.Fresh config e) :
    Archived (s.step config e) := by
  cases e with
  | writeTick tick now =>
    rw [S3Writer.step, writeTick]
    split
    · next hfull => exact (hs.append tick).flush fun _ => h hfull
    · exact hs.append tick
  | flush now => exact hs.flush h
  | uploaded i =>
    cases hu : s.uploads[i]? with
    | none => rwa [S3Writer.step, S3Writer.uploaded, hu]
    | some upload => exact hs.uploaded hu
  | failed i =>
    cases hu : s.uploads[i]? with
    | none => rwa [S3Writer.step, S3Writer.failed, hu]
    | some upload => exact hs.failed hu

theorem archived_start : Archived {} where
  places := .refl _
  instants := List.nodup_nil
  known _ h := absurd h List.not_mem_nil

/-- The ticks are of one market, and a flush takes a batch when no other is under way. -/
def Steady (config : ArchiveConfig) (market : Market) (s : S3Writer) : ArchiveStep → Prop
  | .writeTick tick _ => tick.market = market ∧ ((s.append tick).Full config → s.uploads = [])
  | .flush _ => s.buffer ≠ [] → s.uploads = []
  | _ => True

/-- At most one batch is under way, and it is older than the buffer. -/
structure InTurn (market : Market) (s : S3Writer) : Prop where
  counted : Counted s
  market : OneMarket s.places market.value
  single : s.uploads.length ≤ 1
  older : ∀ u ∈ s.uploads, ∀ a ∈ u.batch, ∀ b ∈ s.buffer, a.number < b.number

section Steady
variable {market : Market}

theorem InTurn.append (hs : InTurn market s) (hmarket : tick.market = market) :
    InTurn market (s.append tick) := by
  refine ⟨hs.counted.append tick, fun a ha => ?_, hs.single, fun u hu a ha b hb => ?_⟩
  · change a ∈ s.buffer ++ [_] ++ s.uploads.flatMap Upload.batch ++ _ at ha
    rw [List.append_assoc, List.append_assoc, List.singleton_append,
      List.perm_middle.mem_iff, ← List.append_assoc] at ha
    obtain rfl | ha := List.mem_cons.mp ha
    · rw [← hmarket]
      rfl
    · exact hs.market a ha
  · obtain hb | hb := List.mem_append.mp hb
    · exact hs.older u hu a ha b hb
    · rw [List.mem_singleton.mp hb]
      refine hs.counted.lt (List.mem_append_left _ (List.mem_append_right _ ?_))
      exact List.mem_flatMap.mpr ⟨u, hu, ha⟩

theorem InTurn.flush (hs : InTurn market s) (h : s.buffer ≠ [] → s.uploads = []) :
    InTurn market (s.flush config now) := by
  have hcounted : Counted (s.flush config now) := hs.counted.step config (.flush now)
  have hmarket : OneMarket (s.flush config now).places market.value := fun a ha =>
    hs.market a ((s.flush_places config now).mem_iff.mp ha)
  cases hbuffer : s.buffer with
  | nil => rwa [flush_of_nil hbuffer]
  | cons first rest =>
    have hfree : s.uploads = [] := h (by rw [hbuffer]; exact List.cons_ne_nil first rest)
    rw [flush_eq hbuffer] at hcounted hmarket ⊢
    refine ⟨hcounted, hmarket, ?_, fun u _ a _ b hb => absurd hb List.not_mem_nil⟩
    rw [hfree]
    exact le_rfl

theorem InTurn.step (hs : InTurn market s) (e : ArchiveStep) (h : s.Steady config market e) :
    InTurn market (s.step config e) := by
  cases e with
  | writeTick tick now =>
    rw [S3Writer.step, writeTick]
    split
    · next hfull => exact (hs.append h.1).flush fun _ => h.2 hfull
    · exact hs.append h.1
  | flush now => exact hs.flush h
  | uploaded i =>
    cases hu : s.uploads[i]? with
    | none => rwa [S3Writer.step, uploaded, hu]
    | some upload =>
      have hcounted := hs.counted.step config (.uploaded i)
      have hsub := List.eraseIdx_sublist s.uploads i
      have hmarket : OneMarket (s.uploaded i).places market.value := fun a ha =>
        hs.market a (mem_places_of_uploaded hu ha)
      rw [S3Writer.step, uploaded_eq hu] at *
      exact ⟨hcounted, hmarket, hsub.length_le.trans hs.single,
        fun u hmem => hs.older u (hsub.subset hmem)⟩
  | failed i =>
    cases hu : s.uploads[i]? with
    | none => rwa [S3Writer.step, failed, hu]
    | some upload =>
      have hcounted := hs.counted.step config (.failed i)
      have hmarket : OneMarket (s.failed i).places market.value := fun a ha =>
        hs.market a ((failed_places hu).mem_iff.mp ha)
      have hnone : s.uploads.eraseIdx i = [] := by
        obtain ⟨hi, -⟩ := List.getElem?_eq_some_iff.mp hu
        have hlength := List.length_eraseIdx_of_lt hi
        have hsingle := hs.single
        exact List.eq_nil_of_length_eq_zero (by omega)
      rw [S3Writer.step, failed_eq hu, hnone] at hcounted
      rw [failed_eq hu, hnone] at hmarket
      rw [S3Writer.step, failed_eq hu, hnone]
      exact ⟨hcounted, hmarket, Nat.zero_le 1, fun u hmem => absurd hmem List.not_mem_nil⟩

theorem OneMarket.sortable {batch : List Numbered} {name : String} (h : OneMarket batch name) :
    ∀ a ∈ batch, ∀ b ∈ batch, a.record.market = b.record.market :=
  fun a ha b hb => (h a ha).trans (h b hb).symm

theorem InTurn.sortable (hs : InTurn market s) : s.Sortable :=
  OneMarket.sortable fun a ha => hs.market a (List.mem_append_left _ (List.mem_append_left _ ha))

theorem InTurn.admits (hs : InTurn market s) (e : ArchiveStep) (h : s.Steady config market e) :
    s.Admits config e := by
  cases e with
  | writeTick tick now => exact fun _ => (hs.append h.1).sortable
  | flush now => exact hs.sortable
  | uploaded i => trivial
  | failed i =>
    exact fun u hu a ha b hb _ => hs.older u (List.mem_of_getElem? hu) a ha b hb

theorem inTurn_start (market : Market) : InTurn market {} where
  counted := counted_start
  market _ h := absurd h List.not_mem_nil
  single := Nat.zero_le 1
  older _ h := absurd h List.not_mem_nil

theorem admits_of_steady {steps : List ArchiveStep}
    (h : StepsMeet (step config) (Steady config market) {} steps) :
    StepsMeet (step config) (Admits config) {} steps := by
  have hrun := h.invariant (fun s e hs ho => InTurn.step hs e ho) (inTurn_start market)
  refine stepsMeet_iff_prefix.mpr fun pre e hpre => ?_
  have hsteady := stepsMeet_iff_prefix.mp h pre e hpre
  exact (hrun pre ((List.prefix_append pre [e]).trans hpre)).admits e hsteady

end Steady

def tickOf : ArchiveStep → List BrokerTick
  | .writeTick tick _ => [tick]
  | _ => []

theorem records_step (s : S3Writer) (e : ArchiveStep) :
    (s.step config e).written.map Numbered.record =
      s.written.map Numbered.record ++ (tickOf e).map tickRecord := by
  have happend (tick : BrokerTick) : (s.append tick).written.map Numbered.record =
      s.written.map Numbered.record ++ [tickRecord tick] := List.map_append
  cases e with
  | writeTick tick now =>
    rw [step, writeTick]
    split
    · rw [flush_written]
      exact happend tick
    · exact happend tick
  | flush now =>
    rw [step, flush_written]
    exact (List.append_nil _).symm
  | uploaded i =>
    rw [step, uploaded]
    split <;> exact (List.append_nil _).symm
  | failed i =>
    rw [step, failed]
    split <;> exact (List.append_nil _).symm

/-- The ticks written, in their order and with their numbers. -/
theorem written_run (config : ArchiveConfig) (steps : List ArchiveStep) :
    (run config steps).written.map Numbered.record =
        (steps.flatMap tickOf).map tickRecord ∧
      (run config steps).written.map Numbered.number =
        List.range (run config steps).written.length := by
  constructor
  · induction steps using List.reverseRecOn with
    | nil => rfl
    | append_singleton steps e ih =>
      rw [run, List.foldl_append, List.flatMap_append, List.flatMap_singleton, List.map_append,
        ← ih]
      exact records_step _ e
  · have hrun : AlongRun (step config) Counted {} steps :=
      .of_keep (fun _ e hs => hs.step config e) counted_start steps
    exact hrun.last.numbers

/-- What is in the buffer, under way and in the objects are the ticks written, each once. -/
structure Conserved (config : ArchiveConfig) (pre : List ArchiveStep) : Prop where
  places : (run config pre).places.Perm (run config pre).written
  records : (run config pre).written.map Numbered.record = (pre.flatMap tickOf).map tickRecord
  numbers : (run config pre).written.map Numbered.number =
    List.range (run config pre).written.length

/-- Whatever the schedule and the failures, every tick is in one place. Objects are of one market
and in order in the runs in which flushes find ticks of one market and failed batches go back in
front of newer ticks; among these are the runs of one market with one batch at a time. -/
theorem archive_iff (config : ArchiveConfig) (steps : List ArchiveStep) :
    (StepsMeet (step config) (Fresh config) {} steps →
      ∀ pre, pre <+: steps → Conserved config pre) ∧
    (AlongRun (step config) WellFiled {} steps ↔
      StepsMeet (step config) (Admits config) {} steps) ∧
    ∀ market, StepsMeet (step config) (Steady config market) {} steps →
      StepsMeet (step config) (Admits config) {} steps := by
  refine ⟨fun h pre hpre => ?_, ?_, fun market => admits_of_steady⟩
  · have hrun := h.invariant (fun s e hs ho => Archived.step hs e ho) archived_start
    obtain ⟨hrecords, hnumbers⟩ := written_run config pre
    exact ⟨(hrun pre hpre).places, hrecords, hnumbers⟩
  · exact alongRun_iff (D := fun _ => True) (I := Counted) (fun _ e _ hs => hs.step config e)
      (fun _ e _ hc hs => wellFiled_step_iff hs hc e) steps (fun _ _ => trivial) _ counted_start
      wellFiled_start

def tradeOf (symbol : String) (market : Market) (price : ℚ) : BrokerTick where
  symbol := symbol
  market := market
  lastPrice := price
  bid := none
  ask := none
  volume := 1
  timestamp := price
  broker := "feed"

def twoMarkets : List ArchiveStep :=
  [.writeTick (tradeOf "INFY" .nse 1500) 1, .writeTick (tradeOf "AAPL" .us 190) 2, .flush 3,
    .uploaded 0]

/-- Two batches of one symbol are under way when both fail, the older one first. -/
def overtaken : List ArchiveStep :=
  [.writeTick (tradeOf "INFY" .nse 1500) 1, .flush 2, .writeTick (tradeOf "INFY" .nse 1501) 3,
    .flush 4, .failed 0, .failed 0, .flush 5, .uploaded 0]

/-- An object under the key of one market has a tick of another, and one has the later of two
ticks of a symbol first. -/
theorem misfiled_object :
    (StepsMeet (step {}) (Fresh {}) {} twoMarkets ∧ (run {} twoMarkets).uploads = [] ∧
      ∃ o ∈ (run {} twoMarkets).objects, ¬ OneMarket o.batch o.key.market) ∧
    StepsMeet (step {}) (Fresh {}) {} overtaken ∧ (run {} overtaken).uploads = [] ∧
      ∃ o ∈ (run {} overtaken).objects, ¬ InOrder o.batch := by
  have hmixed : (run {} twoMarkets).objects = [⟨⟨"ticks", "NSE", 3⟩,
      [⟨0, tickRecord (tradeOf "INFY" .nse 1500)⟩,
        ⟨1, tickRecord (tradeOf "AAPL" .us 190)⟩]⟩] := by
    decide +kernel
  have hlate : (run {} overtaken).objects = [⟨⟨"ticks", "NSE", 5⟩,
      [⟨1, tickRecord (tradeOf "INFY" .nse 1501)⟩,
        ⟨0, tickRecord (tradeOf "INFY" .nse 1500)⟩]⟩] := by
    decide +kernel
  refine ⟨⟨by decide +kernel, by decide +kernel, ?_⟩, by decide +kernel, by decide +kernel, ?_⟩
  · refine ⟨_, by rw [hmixed]; exact List.mem_singleton_self _, fun h => ?_⟩
    exact absurd (h _ (List.mem_cons_of_mem _ (List.mem_singleton_self _))) (by decide)
  · refine ⟨_, by rw [hlate]; exact List.mem_singleton_self _, fun h => ?_⟩
    exact absurd ((List.pairwise_cons.mp h).1 _ (List.mem_singleton_self _) rfl) (by decide)

end S3Writer
end QuantEmbrace.DataIngestion
