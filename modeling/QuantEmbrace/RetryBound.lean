import QuantEmbrace.RetryReplayer
import QuantEmbrace.Lib.GuardedRun

/-! One message going around: consumed, put on the retry topic when it fails, replayed with the
attempt in its header. Its attempts are numbered, and used up. -/
namespace QuantEmbrace
open LossyUtf8

inductive RetryPlace where
  | source (m : KafkaRecord)
  | retry (f : FailureRecord)
  | dead
  | done
  deriving DecidableEq, Repr

/-- The message is processed; or its processing fails, and the producer takes the failure record
or not; or the replayer polls the retry topic. -/
inductive RoundEvent where
  | succeed
  | fail (taken : Bool) (report : FailureReport)
  | poll (reader : PayloadReader) (delivered : Bool)

/-- Where the message is. The rest is history: the attempts its envelopes carried onto the retry
topic, those its headers carried back, and how often it moved. -/
structure RetryChain where
  place : RetryPlace
  puts : List ℤ := []
  replays : List ℤ := []
  moves : ℕ := 0

namespace RetryChain
variable (p : FailurePublisher) (r : RetryReplayer) (sourceTopic : String)

def move (c : RetryChain) (place : RetryPlace) : RetryChain :=
  { c with place, moves := c.moves + 1 }

/-- The consumer of the source topic. A failure that could not be published is not committed. -/
def consume (c : RetryChain) (m : KafkaRecord) : RoundEvent → RetryChain
  | .succeed => c.move .done
  | .fail taken report =>
    match p.publishRetry taken sourceTopic m report with
    | none => c
    | some f =>
      if f.topic = dlqTopic sourceTopic then c.move .dead
      else { c with puts := c.puts ++ [f.envelope.retryAttempt] }.move (.retry f)
  | .poll _ _ => c

def replay (c : RetryChain) (f : FailureRecord) : RoundEvent → RetryChain
  | .poll reader delivered =>
    match r.pollOnce reader delivered f with
    | .replayed _ m =>
      { c with replays := c.replays ++ [currentAttempt m.headers] }.move (.source m)
    | .dead _ => c.move .dead
    | .uncommitted => c
  | .succeed | .fail _ _ => c

def next (c : RetryChain) (e : RoundEvent) : RetryChain :=
  match c.place with
  | .source m => c.consume p sourceTopic m e
  | .retry f => c.replay r f e
  | .dead | .done => c

/-- The attempts 1, …, `k`. -/
def upTo (k : ℕ) : List ℤ := (List.range k).map fun i => (i : ℤ) + 1

theorem upTo_succ (k : ℕ) : upTo (k + 1) = upTo k ++ [(k : ℤ) + 1] := by
  simp [upTo, List.range_succ]

end RetryChain

/-- A header with the attempt gives the attempt back; zero counts as the first. -/
theorem currentAttempt_replayHeaders (e : FailureEnvelope) :
    currentAttempt (RetryReplayer.replayHeaders e) =
      if e.retryAttempt = 0 then 1 else e.retryAttempt := by
  have hn : ∀ n : ℤ, headerAttempt (.bytes (encode (PythonInt.str n))) = n := by
    intro n
    simp only [headerAttempt, decode_encode, Option.bind_some, PythonInt.parse_str,
      Option.getD_some]
  rw [RetryReplayer.replayHeaders, currentAttempt, if_neg (by simp [retryAttemptHeader])]
  exact hn _

namespace RetryReplayer

/-- What is replayed goes to the source topic of its envelope, with the headers made for it. -/
theorem pollOnce_replayed {r : RetryReplayer} {reader : PayloadReader} {delivered : Bool}
    {f : FailureRecord} {topic : String} {m : KafkaRecord}
    (h : r.pollOnce reader delivered f = .replayed topic m) :
    topic = f.envelope.sourceTopic ∧ m.headers = replayHeaders f.envelope := by
  have hmalformed : ∀ reason,
      r.publishMalformedRetryDlq delivered f reason ≠ .replayed topic m := by
    intro reason
    unfold publishMalformedRetryDlq
    split
    · nofun
    · split <;> nofun
  rw [pollOnce] at h
  rcases he : r.handleEnvelope reader delivered f.envelope with err | d
  · rw [he] at h
    cases err with
    | malformed reason => exact absurd h (hmalformed reason)
    | other => cases h
  · rw [he] at h
    obtain rfl : d = .replayed topic m := h
    rw [handleEnvelope] at he
    split at he
    · cases he
    · dsimp only at he
      split at he
      · cases he
      · rcases hs : r.isStale reader f.envelope.sourceTopic (f.envelope.originalValue.getD "")
          with err | stale
        · rw [hs] at he
          cases he
        · rw [hs] at he
          cases stale with
          | true =>
            simp only [publishRetryDlq, bind, Except.bind, if_true] at he
            split at he <;> cases he
          | false =>
            simp only [bind, Except.bind, Bool.false_eq_true, if_false] at he
            split at he
            · cases he
              exact ⟨rfl, rfl⟩
            · cases he

end RetryReplayer
namespace RetryChain
variable {p : FailurePublisher} {r : RetryReplayer} {sourceTopic : String}

/-- How often the message may still move, with `k` of `n` attempts used. -/
def rank (n k : ℕ) : RetryPlace → ℕ
  | .source _ => 2 * (n - k) + 1
  | .retry _ => 2 * (n - k) + 2
  | .dead | .done => 0

/-- What the place of the message says of `k` attempts. -/
def Numbered (c : RetryChain) (k : ℕ) : Prop :=
  match c.place with
  | .source m => nextRetryAttempt m.headers = k + 1 ∧ c.replays = upTo k
  | .retry f => f.envelope.retryAttempt = k ∧ 0 < k ∧ c.replays = upTo (k - 1)
  | .dead | .done => c.replays = upTo k ∨ c.replays = upTo (k - 1)

/-- `k` attempts are used, numbered one by one, and the moves left are bounded. -/
structure Rounds (p : FailurePublisher) (c : RetryChain) (k : ℕ) : Prop where
  within : k ≤ p.maxRetryAttempts.toNat
  puts : c.puts = upTo k
  numbered : c.Numbered k
  moves : c.moves + rank p.maxRetryAttempts.toNat k c.place ≤ 2 * p.maxRetryAttempts.toNat + 1

theorem Rounds.consume {c : RetryChain} {k : ℕ} {m : KafkaRecord} (h : Rounds p c k)
    (hc : c.place = .source m) (e : RoundEvent) :
    ∃ k', Rounds p (c.consume p sourceTopic m e) k' := by
  obtain ⟨hk, hputs, hnum, hmoves⟩ := h
  simp only [Numbered, hc, rank] at hnum hmoves
  obtain ⟨hnext, hreplays⟩ := hnum
  have hsame : Rounds p c k :=
    ⟨hk, hputs, by simpa only [Numbered, hc] using ⟨hnext, hreplays⟩, by
      simpa only [rank, hc] using hmoves⟩
  cases e with
  | poll reader delivered => exact ⟨k, hsame⟩
  | succeed =>
    exact ⟨k, hk, hputs, .inl hreplays, by simp only [RetryChain.consume, move, rank]; omega⟩
  | fail taken report =>
    cases taken with
    | false =>
      refine ⟨k, ?_⟩
      rw [RetryChain.consume, p.publishRetry_refused]
      exact hsame
    | true =>
      obtain ⟨f, hf, -, -, hattempt, -, -, htopic⟩ := p.publishRetry_taken sourceTopic m report
      rw [RetryChain.consume, hf]
      by_cases hlast : nextRetryAttempt m.headers > p.maxRetryAttempts
      · rw [if_pos hlast] at htopic
        dsimp only
        rw [if_pos htopic]
        exact ⟨k, hk, hputs, .inl hreplays, by simp only [move, rank]; omega⟩
      · rw [if_neg hlast] at htopic
        dsimp only
        rw [if_neg (htopic ▸ retryTopic_ne_dlqTopic sourceTopic)]
        rw [hnext] at hlast hattempt
        refine ⟨k + 1, by omega, ?_, ?_, ?_⟩
        · simp only [move, hputs, hattempt, upTo_succ]
        · exact ⟨by rw [hattempt]; norm_cast, Nat.succ_pos k, hreplays⟩
        · simp only [move, rank]
          omega

theorem Rounds.replay {c : RetryChain} {k : ℕ} {f : FailureRecord} (h : Rounds p c k)
    (hc : c.place = .retry f) (e : RoundEvent) :
    ∃ k', Rounds p (c.replay r f e) k' := by
  obtain ⟨hk, hputs, hnum, hmoves⟩ := h
  simp only [Numbered, hc, rank] at hnum hmoves
  obtain ⟨hattempt, hpos, hreplays⟩ := hnum
  have hsame : Rounds p c k :=
    ⟨hk, hputs, by simpa only [Numbered, hc] using ⟨hattempt, hpos, hreplays⟩, by
      simpa only [rank, hc] using hmoves⟩
  cases e with
  | succeed => exact ⟨k, hsame⟩
  | fail taken report => exact ⟨k, hsame⟩
  | poll reader delivered =>
    rcases hd : r.pollOnce reader delivered f with ⟨topic, m⟩ | d | _
    · have hheaders := (RetryReplayer.pollOnce_replayed hd).2
      have hcurrent : currentAttempt m.headers = k := by
        rw [hheaders, currentAttempt_replayHeaders, hattempt, if_neg (by omega)]
      obtain ⟨k, rfl⟩ : ∃ j, k = j + 1 := ⟨k - 1, by omega⟩
      simp only [RetryChain.replay, hd]
      refine ⟨k + 1, hk, hputs, ⟨by rw [nextRetryAttempt, hcurrent], ?_⟩, ?_⟩
      · rw [hreplays, hcurrent, upTo_succ]
        norm_cast
      · simp only [move, rank]
        omega
    · simp only [RetryChain.replay, hd]
      exact ⟨k, hk, hputs, .inr hreplays, by simp only [move, rank]; omega⟩
    · simp only [RetryChain.replay, hd]
      exact ⟨k, hsame⟩

theorem Rounds.next {c : RetryChain} {k : ℕ} (h : Rounds p c k) (e : RoundEvent) :
    ∃ k', Rounds p (c.next p r sourceTopic e) k' := by
  cases hc : c.place with
  | source m =>
    rw [RetryChain.next, hc]
    exact h.consume hc e
  | retry f =>
    rw [RetryChain.next, hc]
    exact h.replay hc e
  | dead => exact ⟨k, by rwa [RetryChain.next, hc]⟩
  | done => exact ⟨k, by rwa [RetryChain.next, hc]⟩

/-- A record that carries no attempt yet, as the services publish it. -/
def Fresh (headers : KafkaHeaders) : Prop :=
  ∀ h ∈ headers, h.1 = retryAttemptHeader → h.2 = .absent

theorem currentAttempt_fresh {headers : KafkaHeaders} (h : Fresh headers) :
    currentAttempt headers = 0 := by
  induction headers with
  | nil => rfl
  | cons e headers ih =>
    obtain ⟨name, value⟩ := e
    have hskip : name ≠ retryAttemptHeader ∨ value = .absent := by
      by_cases hn : name = retryAttemptHeader
      · exact .inr (h (name, value) List.mem_cons_self hn)
      · exact .inl hn
    rw [currentAttempt, if_pos hskip]
    exact ih fun a ha => h a (List.mem_cons_of_mem _ ha)

theorem rounds_start {m : KafkaRecord} (h : Fresh m.headers) : Rounds p ⟨.source m, [], [], 0⟩ 0 :=
  ⟨Nat.zero_le _, rfl, ⟨by simp [nextRetryAttempt, currentAttempt_fresh h], rfl⟩, by simp [rank]⟩

end RetryChain

open RetryChain GuardedRun

/-- However its processing, its publications and its replays turn out: the message is put on the
retry topic at most `max_retry_attempts` times, under the numbers 1, 2, … that its headers carry
back one by one; once they are used up the next failure that is published goes to the dead
letters; and it moves only so often. -/
theorem retries_bounded (p : FailurePublisher) (r : RetryReplayer) (sourceTopic : String)
    (m : KafkaRecord) (hfresh : Fresh m.headers) (es : List RoundEvent) :
    AlongRun (RetryChain.next p r sourceTopic) (fun c =>
      ∃ k ≤ p.maxRetryAttempts.toNat, c.puts = upTo k ∧
        (c.replays = upTo k ∨ c.replays = upTo (k - 1)) ∧
        (∀ m', c.place = .source m' → k = p.maxRetryAttempts.toNat → ∀ report,
          ∃ f, p.publishRetry true sourceTopic m' report = some f ∧
            f.topic = dlqTopic sourceTopic) ∧
        c.moves ≤ 2 * p.maxRetryAttempts.toNat + 1) ⟨.source m, [], [], 0⟩ es := by
  have hrun : AlongRun (RetryChain.next p r sourceTopic) (fun c => ∃ k, Rounds p c k)
      ⟨.source m, [], [], 0⟩ es :=
    AlongRun.of_keep (fun c e ⟨_, hc⟩ => hc.next e) ⟨0, rounds_start hfresh⟩ es
  intro pre hp
  obtain ⟨k, hk, hputs, hnum, hmoves⟩ := hrun pre hp
  refine ⟨k, hk, hputs, ?_, ?_, by omega⟩
  · simp only [Numbered] at hnum
    split at hnum
    · exact .inl hnum.2
    · exact .inr hnum.2.2
    · exact hnum
    · exact hnum
  · intro m' hm' hlast report
    simp only [Numbered, hm'] at hnum
    obtain ⟨f, hf, -, -, -, -, -, htopic⟩ := p.publishRetry_taken sourceTopic m' report
    refine ⟨f, hf, ?_⟩
    rw [htopic, if_pos (by rw [hnum.1]; omega)]

/-- Failing, replayed and failing again. -/
def failTwice : List RoundEvent :=
  [.fail true ⟨"timeout", "processing_failed", [], "", ""⟩, .poll emptyObjectReader true,
    .fail true ⟨"timeout", "processing_failed", [], "", ""⟩]

theorem retries_bounded_twice :
    AlongRun (RetryChain.next ⟨"risk_engine", 1⟩ ⟨["signals.approved"], 5⟩ "signals.approved")
      (fun c => ∃ k ≤ 1, c.puts = upTo k ∧ (c.replays = upTo k ∨ c.replays = upTo (k - 1)) ∧
        (∀ m', c.place = .source m' → k = 1 → ∀ report,
          ∃ f, FailurePublisher.publishRetry ⟨"risk_engine", 1⟩ true "signals.approved" m' report =
            some f ∧ f.topic = dlqTopic "signals.approved") ∧
        c.moves ≤ 3) ⟨.source ⟨none, some [0x7B, 0x7D], []⟩, [], [], 0⟩ failTwice :=
  retries_bounded ⟨"risk_engine", 1⟩ ⟨["signals.approved"], 5⟩ "signals.approved"
    ⟨none, some [0x7B, 0x7D], []⟩ (by simp [Fresh]) failTwice

/-- With one attempt the message is replayed once and then dead. -/
example : (failTwice.foldl (RetryChain.next ⟨"risk_engine", 1⟩ ⟨["signals.approved"], 5⟩
    "signals.approved") ⟨.source ⟨none, some [0x7B, 0x7D], []⟩, [], [], 0⟩).place = .dead := by
  decide +kernel

end QuantEmbrace
