import QuantEmbrace.Lib.Latch
import QuantEmbrace.Lib.Marks
import QuantEmbrace.Lib.Stamped
import Mathlib.Data.Rat.Floor

/-! The daily login at Zerodha: the operator's token in its row, and the loop of the execution
engine that looks for it. Times are seconds since the epoch. -/
namespace QuantEmbrace.ZerodhaToken
open GuardedRun Latch Periods Stamped

/-- The operator's login: the token that he was given, and when. -/
structure Login where
  token : String
  issued : ℚ
  deriving DecidableEq, Repr

/-- `_next_expiry_utc`: 02:00 UTC -/
def nextExpiryUtc (now : ℚ) : ℚ := nextMark 86400 7200 now

structure TokenRow where
  accessToken : String
  expiresAt : ℚ
  deriving DecidableEq, Repr

/-- `store_token`, after `exchange_request_token` -/
def Login.row (login : Login) : TokenRow := ⟨login.token, nextExpiryUtc login.issued⟩

/-- `_seconds_until_token_refresh`: until 01:55 UTC -/
def secondsUntilTokenRefresh (now : ℚ) : ℚ := max 0 (nextMark 86400 6900 now - now)

/-- What `_wait_for_fresh_token` takes for a fresh token. -/
def TokenRow.fresh (row : TokenRow) (now : ℚ) : Bool :=
  row.accessToken ≠ "" ∧ now + 30 * 60 < row.expiresAt

/-- Where `start_token_refresh_loop` is: asleep until 01:55, or in `_wait_for_fresh_token`, which
it has entered then or when the service started without a token. -/
inductive Phase where
  | down
  | sleeping (due : ℚ)
  | polling (due : Option ℚ) (deadline : ℚ)
  deriving DecidableEq, Repr

/-- A token that the loop has taken up: when, of which login, and in the window that was due
when. -/
structure Taking where
  time : ℚ
  login : ℕ
  due : Option ℚ
  deriving DecidableEq, Repr

structure World where
  phase : Phase := .down
  logins : List Login := []
  kiteToken : Option String := none
  connected : Bool := false
  needsAuthentication : Bool := false
  taken : List Taking := []
  deriving DecidableEq, Repr

/-- A read of the row fails, or shows it as one of the logins left it. -/
inductive Event where
  | login (token : String)
  | start (shown : Option ℕ)
  | wake
  | poll (shown : Option ℕ)
  deriving DecidableEq, Repr

def Event.isStart : Event → Bool
  | start _ => true
  | _ => false

namespace World
variable (env : String) (w : World)

/-- `connect`: with the row's token, else with that of the environment. -/
def connect (t : ℚ) (shown : Option Login) : World :=
  match shown.filter fun login => t < login.row.expiresAt with
  | some login => { w with
      kiteToken := some login.row.accessToken, connected := true, needsAuthentication := false }
  | none =>
    if env ≠ "" then
      { w with kiteToken := some env, connected := true, needsAuthentication := false }
    else { w with needsAuthentication := true }

/-- The loop goes to sleep. -/
def schedule (t : ℚ) : World := { w with phase := .sleeping (t + secondsUntilTokenRefresh t) }

/-- `start_token_refresh_loop` up to its first wait. -/
def startLoop (t : ℚ) : World :=
  if w.needsAuthentication then { w with phase := .polling none (t + 1800) } else w.schedule t

/-- `_apply_fresh_token` -/
def applyFreshToken (t : ℚ) (n : ℕ) (login : Login) (due : Option ℚ) : World :=
  { w with
    kiteToken := some login.row.accessToken
    connected := true
    needsAuthentication := false
    taken := ⟨t, n, due⟩ :: w.taken }

/-- No token has come; a window at the start of the service leaves the flags as they are. -/
def giveUp (due : Option ℚ) : World :=
  { w with
    connected := w.connected && due.isNone
    needsAuthentication := w.needsAuthentication || due.isSome }

/-- The login whose fresh token a poll finds. -/
def found (t : ℚ) (shown : Option ℕ) : Option (ℕ × Login) := do
  let n ← shown
  let login ← w.logins[n]?
  if login.row.fresh t then some (n, login) else none

/-- One round of `_wait_for_fresh_token`, and what the loop does with its end. -/
def poll (t : ℚ) (shown : Option ℕ) (due : Option ℚ) (deadline : ℚ) : World :=
  match w.found t shown with
  | some (n, login) => (w.applyFreshToken t n login due).schedule t
  | none => if t < deadline then w else (w.giveUp due).schedule t

def step (w : World) (e : Event × ℚ) : World :=
  match e.1, w.phase with
  | .login token, _ => { w with logins := w.logins ++ [⟨token, e.2⟩] }
  | .start shown, _ =>
    let fresh : World := { logins := w.logins, taken := w.taken }
    (fresh.connect env e.2 (shown.bind (w.logins[·]?))).startLoop e.2
  | .wake, .sleeping due =>
    if due ≤ e.2 then { w with phase := .polling (some due) (e.2 + 1800) } else w
  | .poll shown, .polling due deadline => w.poll e.2 shown due deadline
  | _, _ => w

def run (events : List (Event × ℚ)) : World := events.foldl (step env) {}

/-- The checks with which `place_order` begins. -/
def acceptsOrders : Bool := !w.needsAuthentication && w.connected

end World

section Clock
variable {t : ℚ}

/-- The loop sleeps until the next 01:55. -/
theorem add_secondsUntilTokenRefresh (t : ℚ) :
    t + secondsUntilTokenRefresh t = nextMark 86400 6900 t := by
  have hlt := lt_nextMark (p := (86400 : ℚ)) (c := 6900) (by norm_num) (by norm_num) t
  rw [secondsUntilTokenRefresh, max_eq_right (by linarith)]
  ring

/-- A token is fresh if no 02:00 comes between its login and the end of the next half hour. -/
theorem fresh_iff (login : Login) :
    login.row.fresh t = true ↔ login.token ≠ "" ∧
      ¬∃ m, IsMark 86400 7200 m ∧ login.issued < m ∧ m ≤ t + 30 * 60 := by
  rw [TokenRow.fresh, decide_eq_true_iff, ← not_le]
  refine and_congr_right fun _ => not_congr ?_
  exact nextMark_le_iff (by norm_num) (by norm_num) (by norm_num)

/-- From 01:55 on that asks for a login at 02:00 or later. -/
theorem le_issued_of_fresh {login : Login} {due : ℚ} (hdue : IsMark 86400 6900 due) (hle : due ≤ t)
    (hfresh : login.row.fresh t = true) : due + 300 ≤ login.issued := by
  by_contra hnot
  refine ((fresh_iff login).mp hfresh).2 ⟨due + 300, ?_, not_le.mp hnot, by linarith⟩
  have hmark := hdue.shift 300
  norm_num at hmark
  exact hmark

end Clock

section Windows
variable {env : String} {w : World} {now t : ℚ} {n : ℕ} {login : Login} {shown : Option ℕ}
  {e : Event × ℚ}

theorem found_eq_some : w.found t shown = some (n, login) ↔
    shown = some n ∧ w.logins[n]? = some login ∧ login.row.fresh t = true := by
  rw [World.found]
  cases shown with
  | none => simp
  | some k =>
    cases hread : w.logins[k]? with
    | none =>
      simp only [Option.bind_eq_bind, Option.bind_some, hread, Option.bind_none]
      refine iff_of_false (by simp) fun ⟨heq, hlogin, _⟩ => ?_
      cases heq
      simp [hread] at hlogin
    | some read =>
      simp only [Option.bind_eq_bind, Option.bind_some, hread]
      constructor
      · intro h
        split at h
        · next hfresh =>
          cases h
          exact ⟨rfl, hread, hfresh⟩
        · cases h
      · intro ⟨heq, hlogin, hfresh⟩
        cases heq
        rw [hread] at hlogin
        cases hlogin
        rw [if_pos hfresh]

/-- What holds in every run: the loop keeps to its clock, and takes up logins that were made, in
a daily window no earlier than at 02:00. -/
structure World.Sound (now : ℚ) (w : World) : Prop where
  issued : ∀ login ∈ w.logins, login.issued ≤ now
  sleeping : ∀ due, w.phase = .sleeping due → IsMark 86400 6900 due
  polling : ∀ due deadline, w.phase = .polling (some due) deadline →
    IsMark 86400 6900 due ∧ due ≤ now
  taken : ∀ x ∈ w.taken, ∃ login, w.logins[x.login]? = some login ∧ login.issued ≤ x.time ∧
    ∀ due, x.due = some due → IsMark 86400 6900 due ∧ due + 300 ≤ login.issued

namespace World.Sound

theorem start : ({} : World).Sound now where
  issued := by simp
  sleeping := nofun
  polling := nofun
  taken := by simp

theorem later (h : w.Sound now) (hle : now ≤ t) : w.Sound t where
  issued := fun login hlogin => (h.issued login hlogin).trans hle
  sleeping := h.sleeping
  polling := fun due deadline hphase => by
    obtain ⟨hmark, hdue⟩ := h.polling due deadline hphase
    exact ⟨hmark, hdue.trans hle⟩
  taken := h.taken

theorem addLogin (h : w.Sound t) (token : String) :
    ({ w with logins := w.logins ++ [⟨token, t⟩] } : World).Sound t :=
  { h with
    issued := List.forall_mem_append.mpr ⟨h.issued, by simp⟩
    taken := fun x hx => by
      obtain ⟨login, hlogin, hrest⟩ := h.taken x hx
      obtain ⟨hlt, -⟩ := List.getElem?_eq_some_iff.mp hlogin
      exact ⟨login, by rwa [List.getElem?_append_left hlt], hrest⟩ }

theorem schedule (h : w.Sound t) : (w.schedule t).Sound t :=
  { h with
    sleeping := fun due hphase => by
      cases hphase
      rw [add_secondsUntilTokenRefresh]
      exact isMark_nextMark _ _ t
    polling := nofun }

/-- A process that starts knows nothing of the one before. -/
theorem startLoop (h : w.Sound t) : (w.startLoop t).Sound t := by
  rw [World.startLoop]
  split
  · exact { h with sleeping := nofun, polling := nofun }
  · exact h.schedule

theorem connect (h : w.Sound t) (env : String) (shown : Option Login) :
    (w.connect env t shown).Sound t := by
  rw [World.connect]
  split
  · exact { h with }
  · split
    · exact { h with }
    · exact { h with }

theorem poll {due : Option ℚ} {deadline : ℚ} (h : w.Sound t)
    (hphase : w.phase = .polling due deadline) : (w.poll t shown due deadline).Sound t := by
  rw [World.poll]
  split
  · next n login hfound =>
    obtain ⟨-, hlogin, hfresh⟩ := found_eq_some.mp hfound
    have happlied : (w.applyFreshToken t n login due).Sound t :=
      { h with
        taken := by
          refine List.forall_mem_cons.mpr ⟨⟨login, hlogin, ?_, fun d hd => ?_⟩, h.taken⟩
          · exact h.issued login (List.mem_of_getElem? hlogin)
          · dsimp only at hd
            subst hd
            obtain ⟨hmark, hle⟩ := h.polling d deadline hphase
            exact ⟨hmark, le_issued_of_fresh hmark hle hfresh⟩ }
    exact happlied.schedule
  · split
    · exact h
    · have hgiven : (w.giveUp due).Sound t := { h with }
      exact hgiven.schedule

theorem step (h : w.Sound now) (hle : now ≤ e.2) : (w.step env e).Sound e.2 := by
  obtain ⟨kind, t⟩ := e
  have h := h.later hle
  cases kind with
  | login token => exact h.addLogin token
  | start shown =>
    have hfresh : ({ logins := w.logins, taken := w.taken } : World).Sound t :=
      ⟨h.issued, nofun, nofun, h.taken⟩
    exact (hfresh.connect env _).startLoop
  | wake =>
    rw [World.step]
    cases hphase : w.phase with
    | down => exact h
    | polling due deadline => exact h
    | sleeping due =>
      dsimp only
      split
      · next hdue =>
        exact
          { h with
            sleeping := nofun
            polling := fun d deadline heq => by
              cases heq
              exact ⟨h.sleeping due hphase, hdue⟩ }
      · exact h
  | poll shown =>
    rw [World.step]
    cases hphase : w.phase with
    | down => exact h
    | sleeping due => exact h
    | polling due deadline => exact h.poll hphase

theorem run {events : List (Event × ℚ)} (hasc : Ascending events) (hle : ∀ e ∈ events, e.2 ≤ t) :
    (World.run env events).Sound t := by
  induction events using List.reverseRecOn generalizing t with
  | nil => exact start
  | append_singleton events e ih =>
    obtain ⟨hevents, -, hpast⟩ := List.pairwise_append.mp hasc
    have hbefore : ∀ e' ∈ events, e'.2 ≤ e.2 := fun e' he' =>
      hpast e' he' e (List.mem_singleton_self e)
    rw [World.run, List.foldl_append]
    exact ((ih hevents hbefore).step le_rfl).later (hle e (by simp))

end World.Sound

/-- A login that was made while the loop slept, and that it has not taken up. -/
structure World.Late (u : ℚ) (n : ℕ) (w : World) : Prop where
  issued : ∃ token, w.logins[n]? = some ⟨token, u⟩
  sleeping : ∀ due, w.phase = .sleeping due → u < due
  polling : ∀ due deadline, w.phase = .polling due deadline → ∃ d, due = some d ∧ u < d
  taken : ∀ x ∈ w.taken, x.login ≠ n

namespace World.Late
variable {u : ℚ}

theorem schedule (h : w.Late u n) (hle : u ≤ t) : (w.schedule t).Late u n :=
  { h with
    sleeping := fun due hphase => by
      cases hphase
      rw [add_secondsUntilTokenRefresh]
      exact hle.trans_lt (lt_nextMark (by norm_num) (by norm_num) t)
    polling := nofun }

/-- No later window finds it fresh. -/
theorem step (h : w.Late u n) (hsound : w.Sound e.2) (hle : u ≤ e.2) (hrun : e.1.isStart = false) :
    (w.step env e).Late u n := by
  obtain ⟨kind, t⟩ := e
  cases kind with
  | start shown => cases hrun
  | login token =>
    obtain ⟨old, hold⟩ := h.issued
    obtain ⟨hlt, -⟩ := List.getElem?_eq_some_iff.mp hold
    exact { h with issued := ⟨old, (List.getElem?_append_left hlt).trans hold⟩ }
  | wake =>
    rw [World.step]
    cases hphase : w.phase with
    | down => exact h
    | polling due deadline => exact h
    | sleeping due =>
      dsimp only
      split
      · exact
          { h with
            sleeping := nofun
            polling := fun d deadline heq => by
              cases heq
              exact ⟨due, rfl, h.sleeping due hphase⟩ }
      · exact h
  | poll shown =>
    rw [World.step]
    cases hphase : w.phase with
    | down => exact h
    | sleeping due => exact h
    | polling due deadline =>
      dsimp only
      obtain ⟨d, rfl, hlt⟩ := h.polling due deadline hphase
      rw [World.poll]
      split
      · next m login hfound =>
        obtain ⟨-, hlogin, hfresh⟩ := found_eq_some.mp hfound
        obtain ⟨hmark, hdue⟩ := hsound.polling d deadline hphase
        have hissued := le_issued_of_fresh hmark hdue hfresh
        have hother : m ≠ n := by
          rintro rfl
          obtain ⟨token, htoken⟩ := h.issued
          cases htoken.symm.trans hlogin
          linarith
        have happlied : (w.applyFreshToken t m login (some d)).Late u n :=
          { h with taken := List.forall_mem_cons.mpr ⟨hother, h.taken⟩ }
        exact happlied.schedule hle
      · split
        · exact h
        · have hgiven : (w.giveUp (some d)).Late u n := { h with }
          exact hgiven.schedule hle

theorem foldl (h : w.Late u n) (hsound : w.Sound now) {events : List (Event × ℚ)}
    (hasc : Ascending events) (hle : ∀ e ∈ events, now ≤ e.2) (hu : u ≤ now)
    (hrun : ∀ e ∈ events, e.1.isStart = false) : (events.foldl (World.step env) w).Late u n := by
  induction events generalizing w now with
  | nil => exact h
  | cons e events ih =>
    obtain ⟨hfirst, hasc⟩ := List.pairwise_cons.mp hasc
    obtain ⟨hnow, -⟩ := List.forall_mem_cons.mp hle
    obtain ⟨hone, hrun⟩ := List.forall_mem_cons.mp hrun
    have hlate : (w.step env e).Late u n := h.step (hsound.later hnow) (hu.trans hnow) hone
    exact ih hlate (hsound.step hnow) hasc hfirst (hu.trans hnow) hrun

end World.Late

/-- A poll takes up the login that it is shown, or none. -/
theorem taken_poll {due : Option ℚ} {deadline : ℚ} :
    (w.poll t shown due deadline).taken = ⟨t, n, due⟩ :: w.taken ↔
      ∃ login, w.found t shown = some (n, login) := by
  rw [World.poll]
  cases hfound : w.found t shown with
  | none =>
    have hkept : (if t < deadline then w else (w.giveUp due).schedule t).taken = w.taken := by
      split <;> rfl
    dsimp only
    rw [hkept]
    exact iff_of_false (List.cons_ne_self _ _).symm (by simp)
  | some x =>
    obtain ⟨m, login⟩ := x
    simp [World.schedule, World.applyFreshToken, eq_comm]

end Windows

section Runs
variable {env : String}

theorem World.run_snoc (events : List (Event × ℚ)) (e : Event × ℚ) :
    World.run env (events ++ [e]) = (World.run env events).step env e := by
  rw [World.run, List.foldl_append]
  rfl

theorem World.step_poll {w : World} {t deadline : ℚ} {shown : Option ℕ} {due : Option ℚ}
    (hphase : w.phase = .polling due deadline) :
    w.step env (.poll shown, t) = w.poll t shown due deadline := by
  rw [World.step, hphase]

/-- A poll takes up a login if no 02:00 UTC comes between it and the end of the next half hour. So
the window of 01:55 takes up no login before 02:00; and a login made while the loop sleeps is not
taken up until the service is restarted. -/
theorem login_taken_up_iff (env : String) (events : List (Event × ℚ)) (hasc : Ascending events) :
    (∀ pre t shown post, events = pre ++ (.poll shown, t) :: post →
      ∀ due deadline, (World.run env pre).phase = .polling due deadline → ∀ n,
        (World.run env (pre ++ [(.poll shown, t)])).taken =
            ⟨t, n, due⟩ :: (World.run env pre).taken ↔
          shown = some n ∧ ∃ login, (World.run env pre).logins[n]? = some login ∧
            login.token ≠ "" ∧
              ¬∃ m, IsMark 86400 7200 m ∧ login.issued < m ∧ m ≤ t + 30 * 60) ∧
    (∀ x ∈ (World.run env events).taken,
      ∃ login, (World.run env events).logins[x.login]? = some login ∧ login.issued ≤ x.time ∧
        ∀ due, x.due = some due → IsMark 86400 6900 due ∧ due + 300 ≤ login.issued) ∧
    ∀ pre u token post due, events = pre ++ (.login token, u) :: post →
      (World.run env pre).phase = .sleeping due → u < due →
      (∀ e ∈ post, e.1.isStart = false) →
      ∀ x ∈ (World.run env events).taken, x.login ≠ (World.run env pre).logins.length := by
  refine ⟨?_, ?_, ?_⟩
  · intro pre t shown post _ due deadline hphase n
    rw [World.run_snoc, World.step_poll hphase, taken_poll]
    simp only [found_eq_some, fresh_iff, exists_and_left]
  · obtain ⟨last, hlast⟩ := hasc.exists_le
    exact (World.Sound.run hasc hlast).taken
  · rintro pre u token post due rfl hphase hlt hrun
    obtain ⟨hpre, hpost, hpast⟩ := List.pairwise_append.mp hasc
    obtain ⟨hfirst, hpost⟩ := List.pairwise_cons.mp hpost
    have hsound : (World.run env pre).Sound u :=
      World.Sound.run hpre fun e he => hpast e he (.login token, u) List.mem_cons_self
    have hlate : ((World.run env pre).step env (.login token, u)).Late u
        (World.run env pre).logins.length :=
      { issued := ⟨token, by simp [World.step]⟩
        sleeping := fun d heq => by
          cases hphase.symm.trans heq
          exact hlt
        polling := fun d deadline heq => by
          cases hphase.symm.trans heq
        taken := fun x hx => by
          obtain ⟨login, hlogin, -⟩ := hsound.taken x hx
          exact (List.getElem?_eq_some_iff.mp hlogin).1.ne }
    rw [World.run, List.foldl_append, List.foldl_cons]
    exact (hlate.foldl (hsound.step le_rfl) hpost hfirst le_rfl hrun).taken

/-- A night: of the logins, one is made while the loop sleeps and one on its warning at 01:55;
only the first and the last are taken up. -/
def night : List (Event × ℚ) :=
  [(.start none, 100), (.login "a", 150), (.poll (some 0), 180), (.login "b", 3000),
    (.wake, 6900), (.poll (some 1), 6930), (.login "c", 7000), (.poll (some 2), 7030),
    (.login "d", 7300), (.poll (some 3), 7330)]

theorem login_taken_up_iff_night : Ascending night ∧
    ((World.run "" night).taken.map fun x => (x.time, x.login)) = [(7330, 3), (180, 0)] ∧
      ∀ x ∈ (World.run "" night).taken, x.login ≠ 1 := by
  have hasc : Ascending night := by
    unfold Ascending night
    decide +kernel
  have hlater := (login_taken_up_iff "" night hasc).2.2
    [(.start none, 100), (.login "a", 150), (.poll (some 0), 180)] 3000 "b"
    [(.wake, 6900), (.poll (some 1), 6930), (.login "c", 7000), (.poll (some 2), 7030),
      (.login "d", 7300), (.poll (some 3), 7330)] 6900 rfl (by decide +kernel) (by norm_num)
    (by decide)
  have hlength : (World.run "" [(.start none, 100), (.login "a", 150),
      (.poll (some 0), 180)]).logins.length = 1 := by decide +kernel
  rw [hlength] at hlater
  exact ⟨hasc, by decide +kernel, hlater⟩

/-- What a token is known to be good for while the loop sleeps. -/
def World.Covered (env : String) (Started : ℚ → Prop) (w : World) (due : ℚ) : Prop :=
  (env ≠ "" ∧ w.kiteToken = some env) ∨
    ∃ login ∈ w.logins, w.kiteToken = some login.token ∧
      (due < nextExpiryUtc login.issued ∨
        ∃ s, Started s ∧ s < nextExpiryUtc login.issued ∧ nextExpiryUtc login.issued ≤ s + 300)

structure World.Provided (env : String) (Started : ℚ → Prop) (w : World) : Prop where
  asleep : ∀ due, w.phase = .sleeping due → w.connected = true → w.Covered env Started due
  unstarted : ∀ deadline, w.phase = .polling none deadline → w.connected = false

variable {Started : ℚ → Prop} {w : World} {t : ℚ} {e : Event × ℚ}

/-- A token that is good until after the next 01:55 is good until the loop wakes. -/
theorem wake_lt_nextExpiry {login : Login} (hlt : t + 300 < nextExpiryUtc login.issued) :
    t + secondsUntilTokenRefresh t < nextExpiryUtc login.issued := by
  have hmark : IsMark 86400 6900 (nextExpiryUtc login.issued - 300) := by
    have hshift := (isMark_nextMark 86400 7200 login.issued).shift (-300)
    norm_num at hshift
    rw [nextExpiryUtc, sub_eq_add_neg]
    exact hshift
  have hle := nextMark_le (by norm_num) (by norm_num) hmark (t := t) (by linarith)
  rw [add_secondsUntilTokenRefresh]
  linarith

namespace World.Provided

theorem addLogin (h : w.Provided env Started) (login : Login) :
    ({ w with logins := w.logins ++ [login] } : World).Provided env Started :=
  { h with
    asleep := fun due hphase hconnected => by
      refine (h.asleep due hphase hconnected).imp_right fun ⟨old, hold, hrest⟩ => ?_
      exact ⟨old, List.mem_append_left _ hold, hrest⟩ }

/-- A service that starts shortly before 02:00 takes the token that is about to expire. -/
theorem start (hstarted : Started t) {shown : Option Login}
    (hshown : ∀ login, shown = some login → login ∈ w.logins) :
    ((({ logins := w.logins, taken := w.taken } : World).connect env t shown).startLoop
      t).Provided env Started := by
  rw [World.connect]
  cases hvalid : shown.filter fun login => t < login.row.expiresAt with
  | some login =>
    obtain ⟨hlogin, hexpiry⟩ := Option.filter_eq_some_iff.mp hvalid
    refine ⟨fun due hphase _ => .inr ⟨login, hshown login hlogin, rfl, ?_⟩, nofun⟩
    cases hphase
    by_cases hgap : t + 300 < nextExpiryUtc login.issued
    · exact .inl (wake_lt_nextExpiry hgap)
    · exact .inr ⟨t, hstarted, of_decide_eq_true hexpiry, not_lt.mp hgap⟩
  | none =>
    dsimp only
    split
    · next henv => exact ⟨fun due _ _ => .inl ⟨henv, rfl⟩, nofun⟩
    · exact ⟨nofun, fun _ _ => rfl⟩

theorem poll {due : Option ℚ} {deadline : ℚ} {shown : Option ℕ} (h : w.Provided env Started)
    (hphase : w.phase = .polling due deadline) :
    (w.poll t shown due deadline).Provided env Started := by
  rw [World.poll]
  split
  · next n login hfound =>
    obtain ⟨-, hlogin, hfresh⟩ := found_eq_some.mp hfound
    refine ⟨fun due hphase _ => .inr ⟨login, List.mem_of_getElem? hlogin, rfl, .inl ?_⟩, nofun⟩
    cases hphase
    have hlater := (of_decide_eq_true hfresh).2
    rw [Login.row] at hlater
    exact wake_lt_nextExpiry (by linarith)
  · split
    · exact h
    · refine ⟨fun _ _ hconnected => ?_, nofun⟩
      obtain ⟨hon, hnone⟩ := Bool.and_eq_true_iff.mp hconnected
      rw [Option.isNone_iff_eq_none] at hnone
      subst hnone
      rw [h.unstarted deadline hphase] at hon
      cases hon

theorem step (h : w.Provided env Started) (hstarted : e.1.isStart = true → Started e.2) :
    (w.step env e).Provided env Started := by
  obtain ⟨kind, t⟩ := e
  cases kind with
  | login token => exact h.addLogin _
  | start shown =>
    refine start (hstarted rfl) fun login hlogin => ?_
    obtain ⟨n, -, hread⟩ := Option.bind_eq_some_iff.mp hlogin
    exact List.mem_of_getElem? hread
  | wake =>
    rw [World.step]
    cases hphase : w.phase with
    | down => exact h
    | polling due deadline => exact h
    | sleeping due =>
      dsimp only
      split
      · exact ⟨nofun, nofun⟩
      · exact h
  | poll shown =>
    rw [World.step]
    cases hphase : w.phase with
    | down => exact h
    | sleeping due => exact h
    | polling due deadline => exact h.poll hphase

theorem foldl (h : w.Provided env Started) {events : List (Event × ℚ)}
    (hstarted : ∀ e ∈ events, e.1.isStart = true → Started e.2) :
    (events.foldl (World.step env) w).Provided env Started := by
  induction events generalizing w with
  | nil => exact h
  | cons e events ih =>
    obtain ⟨hone, hstarted⟩ := List.forall_mem_cons.mp hstarted
    exact ih (h.step hone) hstarted

end World.Provided

/-- While the loop sleeps, the token in use is the environment's, or good until the loop wakes;
unless the service was started in the five minutes before the token expires. -/
theorem asleep_token_valid (env : String) (events : List (Event × ℚ)) (due : ℚ)
    (hphase : (World.run env events).phase = .sleeping due)
    (hconnected : (World.run env events).connected = true) :
    (World.run env events).Covered env
      (fun s => ∃ shown, (.start shown, s) ∈ events) due := by
  have hstart : ({} : World).Provided env fun s => ∃ shown, (.start shown, s) ∈ events :=
    ⟨nofun, nofun⟩
  refine (hstart.foldl fun e he hrun => ?_).asleep due hphase hconnected
  obtain ⟨kind, t⟩ := e
  cases kind with
  | start shown => exact ⟨shown, he⟩
  | _ => cases hrun

/-- Started at 01:56:40, it keeps the token that expires at 02:00 for a day. -/
theorem asleep_token_valid_started :
    let events : List (Event × ℚ) := [(.login "a", 100), (.start (some 0), 7000)]
    (World.run "" events).phase = .sleeping 93300 ∧ (World.run "" events).connected = true ∧
      nextExpiryUtc 100 = 7200 ∧
        (World.run "" events).Covered ""
          (fun s => ∃ shown, (.start shown, s) ∈ events) 93300 := by
  intro events
  have hphase : (World.run "" events).phase = .sleeping 93300 := by decide +kernel
  have hconnected : (World.run "" events).connected = true := by decide +kernel
  exact ⟨hphase, hconnected, by decide +kernel,
    asleep_token_valid "" events 93300 hphase hconnected⟩

/-- The service starts with a token that it may use, or takes one up. -/
def Authenticates (env : String) (w : World) (e : Event × ℚ) : Prop :=
  match e.1, w.phase with
  | .start shown, _ => env ≠ "" ∨
      ∃ login, shown.bind (w.logins[·]?) = some login ∧ e.2 < nextExpiryUtc login.issued
  | .poll shown, .polling _ _ => ∃ x, w.found e.2 shown = some x
  | _, _ => False

/-- It starts without one, or a daily window ends without one. -/
def Disconnects (env : String) (w : World) (e : Event × ℚ) : Prop :=
  match e.1, w.phase with
  | .start shown, _ => env = "" ∧
      ∀ login, shown.bind (w.logins[·]?) = some login → nextExpiryUtc login.issued ≤ e.2
  | .poll shown, .polling (some _) deadline => w.found e.2 shown = none ∧ deadline ≤ e.2
  | _, _ => False

theorem acceptsOrders_start (env : String) (shown : Option ℕ) :
    (w.step env (.start shown, t)).acceptsOrders = true ↔
      env ≠ "" ∨ ∃ login, shown.bind (w.logins[·]?) = some login ∧ t < nextExpiryUtc login.issued := by
  change ((({ logins := w.logins, taken := w.taken } : World).connect env t
    (shown.bind (w.logins[·]?))).startLoop t).acceptsOrders = true ↔ _
  rw [World.connect]
  cases hvalid : (shown.bind (w.logins[·]?)).filter fun login => t < login.row.expiresAt with
  | some login =>
    obtain ⟨hlogin, hexpiry⟩ := Option.filter_eq_some_iff.mp hvalid
    exact iff_of_true rfl (.inr ⟨login, hlogin, of_decide_eq_true hexpiry⟩)
  | none =>
    have hexpired := Option.filter_eq_none_iff.mp hvalid
    dsimp only
    by_cases henv : env ≠ ""
    · rw [if_pos henv]
      exact iff_of_true rfl (.inl henv)
    · rw [if_neg henv]
      refine iff_of_false (by simp [World.startLoop, World.acceptsOrders]) ?_
      rintro (hset | ⟨login, hlogin, hlt⟩)
      · exact henv hset
      · exact absurd (decide_eq_true hlt) (hexpired login hlogin)

theorem acceptsOrders_poll {shown : Option ℕ} {due : Option ℚ} {deadline : ℚ} :
    (w.poll t shown due deadline).acceptsOrders = true ↔
      (∃ x, w.found t shown = some x) ∨
        (w.acceptsOrders = true ∧ ¬(due.isSome = true ∧ deadline ≤ t)) := by
  rw [World.poll]
  cases hfound : w.found t shown with
  | some x => exact iff_of_true rfl (.inl ⟨x, rfl⟩)
  | none =>
    dsimp only
    by_cases hwait : t < deadline
    · simp [hwait]
    · cases due <;>
        simp [hwait, not_lt.mp hwait, World.giveUp, World.schedule, World.acceptsOrders]

theorem acceptsOrders_flag (env : String) :
    Flag (World.step env) (fun w => w.acceptsOrders = true) (Authenticates env)
      (Disconnects env) where
  set := fun w e hset => by
    obtain ⟨kind, t⟩ := e
    cases kind with
    | login token => cases hset
    | start shown => exact (acceptsOrders_start env shown).mpr hset
    | wake => cases hset
    | poll shown =>
      cases hphase : w.phase with
      | down => simp [Authenticates, hphase] at hset
      | sleeping due => simp [Authenticates, hphase] at hset
      | polling due deadline =>
        simp only [Authenticates, hphase] at hset
        rw [World.step_poll hphase, acceptsOrders_poll]
        exact .inl hset
  clear := fun w e hclear => by
    obtain ⟨kind, t⟩ := e
    cases kind with
    | login token => cases hclear
    | start shown =>
      obtain ⟨henv, hexpired⟩ := hclear
      rw [acceptsOrders_start]
      rintro (hset | ⟨login, hlogin, hlt⟩)
      · exact hset henv
      · exact not_lt.mpr (hexpired login hlogin) hlt
    | wake => cases hclear
    | poll shown =>
      cases hphase : w.phase with
      | down => simp [Disconnects, hphase] at hclear
      | sleeping due => simp [Disconnects, hphase] at hclear
      | polling due deadline =>
        cases due with
        | none => simp [Disconnects, hphase] at hclear
        | some due =>
          simp only [Disconnects, hphase] at hclear
          rw [World.step_poll hphase, acceptsOrders_poll, hclear.1]
          simp [hclear.2]
  keep := fun w e hset hclear => by
    obtain ⟨kind, t⟩ := e
    cases kind with
    | login token => rfl
    | start shown =>
      refine absurd ⟨not_not.mp fun henv => hset (.inl henv), fun login hlogin => ?_⟩ hclear
      exact not_lt.mp fun hlt => hset (.inr ⟨login, hlogin, hlt⟩)
    | wake =>
      rw [World.step]
      cases hphase : w.phase with
      | sleeping due =>
        dsimp only
        split <;> rfl
      | _ => rfl
    | poll shown =>
      cases hphase : w.phase with
      | down => rw [World.step, hphase]
      | sleeping due => rw [World.step, hphase]
      | polling due deadline =>
        simp only [Authenticates, hphase] at hset
        rw [World.step_poll hphase, acceptsOrders_poll, or_iff_right hset]
        refine and_iff_left fun ⟨hdue, hend⟩ => hclear ?_
        obtain ⟨due, rfl⟩ := Option.isSome_iff_exists.mp hdue
        simp only [Disconnects, hphase]
        refine ⟨?_, hend⟩
        rw [Option.eq_none_iff_forall_ne_some]
        exact fun x hx => hset ⟨x, hx⟩

/-- Orders are taken exactly if the service has started with a token or taken one up, and since
then has neither started without one nor ended a daily window without one. -/
theorem orders_taken_iff (env : String) (events : List (Event × ℚ)) :
    (World.run env events).acceptsOrders = true ↔
      ∃ pre e post, events = pre ++ e :: post ∧ Authenticates env (World.run env pre) e ∧
        StepsMeet (World.step env) (fun w e => ¬Disconnects env w e)
          ((World.run env pre).step env e) post := by
  rw [World.run, (acceptsOrders_flag env).on_iff {} events]
  exact or_iff_right fun h => absurd h.1 (by decide)

end Runs

end QuantEmbrace.ZerodhaToken
