import Mathlib.Data.Nat.Digits.Lemmas
import Mathlib.Algebra.Order.Group.Unbundled.Int
import Mathlib.Tactic.Ring

/-! Words that end by themselves, numerals of a fixed width, and `datetime.isoformat`. -/
namespace IsoFormat

section Words
variable {α γ β : Type*} {f : α → List β} {g : γ → List β}

/-- A text shows which word it starts with, and where that word ends. -/
def SelfDelimiting (f : α → List β) : Prop :=
  ∀ ⦃a b : α⦄ ⦃s t : List β⦄, f a ++ s = f b ++ t → a = b ∧ s = t

theorem SelfDelimiting.of_length {n : ℕ} (hlength : ∀ a, (f a).length = n)
    (hf : Function.Injective f) : SelfDelimiting f := by
  intro a b s t h
  obtain ⟨hword, hrest⟩ := List.append_inj h (by rw [hlength, hlength])
  exact ⟨hf hword, hrest⟩

/-- Two words, with something fixed in between. -/
theorem SelfDelimiting.pair (hf : SelfDelimiting f) (hg : SelfDelimiting g) (word : List β) :
    SelfDelimiting fun p : α × γ => f p.1 ++ word ++ g p.2 := by
  intro p q s t h
  simp only [List.append_assoc] at h
  obtain ⟨hfirst, hrest⟩ := hf h
  obtain ⟨hsecond, hrest⟩ := hg (List.append_cancel_left hrest)
  exact ⟨Prod.ext hfirst hsecond, hrest⟩

end Words

/-- `f"{n:0{w}d}"` for a number of at most `w` digits -/
def pad : ℕ → ℕ → List Char
  | 0, _ => []
  | w + 1, n => pad w (n / 10) ++ [Nat.digitChar (n % 10)]

@[simp] theorem length_pad (w n : ℕ) : (pad w n).length = w := by
  induction w generalizing n with
  | zero => rfl
  | succ w ih => rw [pad, List.length_append, ih, List.length_singleton]

theorem isDigit_digitChar {n : ℕ} (h : n < 10) : (Nat.digitChar n).isDigit = true := by
  decide +revert

theorem isDigit_pad {w n : ℕ} : ∀ c ∈ pad w n, c.isDigit = true := by
  induction w generalizing n with
  | zero => simp [pad]
  | succ w ih =>
    intro c hc
    rw [pad, List.mem_append, List.mem_singleton] at hc
    obtain hc | rfl := hc
    · exact ih c hc
    · exact isDigit_digitChar (Nat.mod_lt n (by decide))

theorem not_mem_pad {c : Char} (h : c.isDigit = false) (w n : ℕ) : c ∉ pad w n := fun hc => by
  rw [isDigit_pad c hc] at h
  cases h

theorem digitChar_inj {m n : ℕ} (hm : m < 10) (hn : n < 10)
    (h : Nat.digitChar m = Nat.digitChar n) : m = n := by
  have hall : ∀ m < 10, ∀ n < 10, Nat.digitChar m = Nat.digitChar n → m = n := by decide
  exact hall m hm n hn h

theorem pad_inj {w m n : ℕ} (hm : m < 10 ^ w) (hn : n < 10 ^ w) (h : pad w m = pad w n) :
    m = n := by
  induction w generalizing m n with
  | zero => omega
  | succ w ih =>
    rw [pow_succ] at hm hn
    rw [pad, pad] at h
    obtain ⟨hhigh, hlow⟩ := List.append_inj h (by simp)
    have hhigh := ih (by omega) (by omega) hhigh
    have hlow := digitChar_inj (Nat.mod_lt m (by decide)) (Nat.mod_lt n (by decide))
      (List.singleton_inj.mp hlow)
    omega

theorem pad_selfDelimiting {w k : ℕ} (h : k ≤ 10 ^ w) :
    SelfDelimiting fun n : Fin k => pad w n :=
  .of_length (fun n => length_pad w n) fun m n heq =>
    Fin.ext (pad_inj (m.2.trans_le h) (n.2.trans_le h) heq)

/-- What `utcoffset` answers, in microseconds. -/
structure UtcOffset where
  micros : ℤ
  bounded : micros.natAbs < 86400000000
  deriving DecidableEq, Repr

def utc : UtcOffset := ⟨0, by decide⟩

def daysInMonth (year month : ℕ) : ℕ :=
  if month = 2 then
    if year % 4 = 0 ∧ (year % 100 ≠ 0 ∨ year % 400 = 0) then 29 else 28
  else if month ∈ [4, 6, 9, 11] then 30 else 31

theorem daysInMonth_lt (year month : ℕ) : daysInMonth year month < 32 := by
  rw [daysInMonth]
  split
  · split <;> decide
  · split <;> decide

/-- A `datetime`; a naive one has no offset. -/
structure DateTime where
  year : Fin 10000
  month : Fin 13
  day : Fin 32
  hour : Fin 24
  minute : Fin 60
  second : Fin 60
  microsecond : Fin 1000000
  offset : Option UtcOffset
  exists_day : 0 < year.val ∧ 0 < month.val ∧ 0 < day.val ∧ day.val ≤ daysInMonth year month
  deriving DecidableEq, Repr

/-- The fraction of a second, if there is any. -/
def fraction (microsecond : ℕ) : List Char :=
  if microsecond = 0 then [] else '.' :: pad 6 microsecond

/-- The seconds of an offset, if it has any. -/
def offsetSeconds (micros : ℕ) : List Char :=
  if micros = 0 then [] else ':' :: (pad 2 (micros / 1000000) ++ fraction (micros % 1000000))

namespace UtcOffset
variable (o : UtcOffset)

/-- `±HH:MM[:SS[.ffffff]]` -/
def text : List Char :=
  let m := o.micros.natAbs
  (if o.micros < 0 then '-' else '+') ::
    (pad 2 (m / 3600000000) ++ [':'] ++ pad 2 (m / 60000000 % 60) ++ offsetSeconds (m % 60000000))

end UtcOffset

namespace DateTime
variable (t : DateTime)

/-- `%Y-%m-%dT%H:%M:%S` -/
def stamp : List Char :=
  pad 4 t.year ++ ['-'] ++ pad 2 t.month ++ ['-'] ++ pad 2 t.day ++ ['T'] ++ pad 2 t.hour ++
    [':'] ++ pad 2 t.minute ++ [':'] ++ pad 2 t.second

def isoformat : List Char :=
  t.stamp ++ (fraction t.microsecond ++ (t.offset.elim [] UtcOffset.text))

/-- `replace(tzinfo=timezone.utc)` of a naive time -/
def aware : DateTime := { t with offset := some (t.offset.getD utc) }

/-- The same time on another day, if there is such a day. -/
def onDay (year month day : ℕ) : Option DateTime :=
  if h : (0 < year ∧ year < 10000) ∧ (0 < month ∧ month < 13) ∧
      0 < day ∧ day ≤ daysInMonth year month then
    some { t with
      year := ⟨year, h.1.2⟩
      month := ⟨month, h.2.1.2⟩
      day := ⟨day, h.2.2.2.trans_lt (daysInMonth_lt year month)⟩
      exists_day := ⟨h.1.1, h.2.1.1, h.2.2⟩ }
  else none

/-- The same time on the next day; there is none after the year 9999. -/
def nextDay : Option DateTime :=
  if t.day < daysInMonth t.year t.month then t.onDay t.year t.month (t.day + 1)
  else if t.month.val < 12 then t.onDay t.year (t.month + 1) 1
  else t.onDay (t.year + 1) 1 1

/-- `t + timedelta(seconds=n)` on the clock of the time, for less than a day. -/
def addSeconds (n : ℕ) : Option DateTime :=
  let total := t.hour.val * 3600 + t.minute.val * 60 + t.second.val + n
  (if total < 86400 then some t else t.nextDay).map fun day => { day with
    hour := ⟨total / 3600 % 24, Nat.mod_lt _ (by decide)⟩
    minute := ⟨total / 60 % 60, Nat.mod_lt _ (by decide)⟩
    second := ⟨total % 60, Nat.mod_lt _ (by decide)⟩ }

theorem offset_onDay {year month day : ℕ} {u : DateTime} (h : t.onDay year month day = some u) :
    u.offset = t.offset := by
  rw [onDay] at h
  split at h
  · cases h
    rfl
  · cases h

theorem offset_nextDay {u : DateTime} (h : t.nextDay = some u) : u.offset = t.offset := by
  rw [nextDay] at h
  split at h
  · exact offset_onDay t h
  · split at h
    · exact offset_onDay t h
    · exact offset_onDay t h

theorem offset_addSeconds {n : ℕ} {u : DateTime} (h : t.addSeconds n = some u) :
    u.offset = t.offset := by
  rw [addSeconds, Option.map_eq_some_iff] at h
  obtain ⟨day, hday, hu⟩ := h
  have hoffset : day.offset = t.offset := by
    split at hday
    · cases hday
      rfl
    · exact offset_nextDay t hday
  rw [← hu, ← hoffset]

@[simp] theorem aware_aware : t.aware.aware = t.aware := rfl

theorem aware_of_offset (h : t.offset ≠ none) : t.aware = t := by
  cases t with
  | mk year month day hour minute second microsecond offset exists_day =>
    cases offset with
    | none => exact absurd rfl h
    | some o => rfl

theorem isoformat_ne_nil : t.isoformat ≠ [] := by
  simp [isoformat, stamp]

end DateTime

theorem fraction_append_inj {m n : ℕ} {s t : List Char} (hm : m < 1000000) (hn : n < 1000000)
    (hs : s.head? ≠ some '.') (ht : t.head? ≠ some '.')
    (h : fraction m ++ s = fraction n ++ t) : m = n ∧ s = t := by
  rw [fraction, fraction] at h
  by_cases hm0 : m = 0
  · by_cases hn0 : n = 0
    · rw [if_pos hm0, if_pos hn0] at h
      exact ⟨by omega, h⟩
    · rw [if_pos hm0, if_neg hn0] at h
      exact absurd (by rw [show s = _ from h]; rfl) hs
  · by_cases hn0 : n = 0
    · rw [if_neg hm0, if_pos hn0] at h
      exact absurd (by rw [show t = _ from h.symm]; rfl) ht
    · rw [if_neg hm0, if_neg hn0, List.cons_append, List.cons_append, List.cons_inj_right] at h
      obtain ⟨hdigits, hrest⟩ := List.append_inj h (by simp)
      exact ⟨pad_inj (by omega) (by omega) hdigits, hrest⟩

theorem fraction_inj {m n : ℕ} (hm : m < 1000000) (hn : n < 1000000)
    (h : fraction m = fraction n) : m = n :=
  (fraction_append_inj (s := []) (t := []) hm hn (by simp) (by simp) (by simpa using h)).1

theorem offsetSeconds_inj {m n : ℕ} (hm : m < 60000000) (hn : n < 60000000)
    (h : offsetSeconds m = offsetSeconds n) : m = n := by
  rw [offsetSeconds, offsetSeconds] at h
  by_cases hm0 : m = 0
  · by_cases hn0 : n = 0
    · omega
    · rw [if_pos hm0, if_neg hn0] at h
      cases h
  · by_cases hn0 : n = 0
    · rw [if_neg hm0, if_pos hn0] at h
      cases h
    · rw [if_neg hm0, if_neg hn0, List.cons_inj_right] at h
      obtain ⟨hseconds, hfraction⟩ := List.append_inj h (by simp)
      have hseconds := pad_inj (by omega) (by omega) hseconds
      have hfraction := fraction_inj (Nat.mod_lt m (by decide)) (Nat.mod_lt n (by decide)) hfraction
      omega

theorem UtcOffset.text_injective : Function.Injective UtcOffset.text := by
  intro o p h
  have ho := o.bounded
  have hp := p.bounded
  rw [text, text, List.cons.injEq] at h
  obtain ⟨hsign, hrest⟩ := h
  obtain ⟨hclock, hseconds⟩ := List.append_inj hrest (by simp)
  obtain ⟨hhours, hminutes⟩ := List.append_inj hclock (by simp)
  have hhours := pad_inj (by omega) (by omega) (List.append_cancel_right hhours)
  have hminutes := pad_inj (by omega) (by omega) hminutes
  have hseconds := offsetSeconds_inj (Nat.mod_lt _ (by decide)) (Nat.mod_lt _ (by decide)) hseconds
  have habs : o.micros.natAbs = p.micros.natAbs := by omega
  have hmicros : o.micros = p.micros := by
    split at hsign <;> split at hsign
    · omega
    · exact absurd hsign (by decide)
    · exact absurd hsign (by decide)
    · omega
  cases o
  cases p
  simpa using hmicros

theorem UtcOffset.head_text (o : UtcOffset) : o.text.head? ≠ some '.' := by
  rw [text, List.head?_cons]
  split <;> decide

namespace DateTime

/-- Six numerals, each of a width of its own. -/
theorem stamp_append_inj {t u : DateTime} {s s' : List Char}
    (h : t.stamp ++ s = u.stamp ++ s') :
    (((((t.year, t.month), t.day), t.hour), t.minute), t.second) =
      (((((u.year, u.month), u.day), u.hour), u.minute), u.second) ∧ s = s' := by
  have hyear := pad_selfDelimiting (w := 4) (k := 10000) (by decide)
  have hmonth := pad_selfDelimiting (w := 2) (k := 13) (by decide)
  have hday := pad_selfDelimiting (w := 2) (k := 32) (by decide)
  have hhour := pad_selfDelimiting (w := 2) (k := 24) (by decide)
  have hsixty := pad_selfDelimiting (w := 2) (k := 60) (by decide)
  have hdate := (hyear.pair hmonth ['-']).pair hday ['-']
  exact (((hdate.pair hhour ['T']).pair hsixty [':']).pair hsixty [':']) h

theorem isoformat_injective : Function.Injective isoformat := by
  intro t u h
  obtain ⟨hfields, hrest⟩ := stamp_append_inj h
  have hhead : ∀ o : Option UtcOffset, (o.elim [] UtcOffset.text).head? ≠ some '.' := by
    intro o
    cases o with
    | none => simp
    | some o => exact o.head_text
  obtain ⟨hmicro, hoffset⟩ := fraction_append_inj t.microsecond.2 u.microsecond.2
    (hhead t.offset) (hhead u.offset) hrest
  have hoffset : t.offset = u.offset := by
    cases ht : t.offset with
    | none =>
      cases hu : u.offset with
      | none => rfl
      | some o => simp [ht, hu, UtcOffset.text] at hoffset
    | some o =>
      cases hu : u.offset with
      | none => simp [ht, hu, UtcOffset.text] at hoffset
      | some p =>
        rw [ht, hu] at hoffset
        rw [UtcOffset.text_injective hoffset]
  have hmicro := Fin.ext hmicro
  cases t
  cases u
  simp_all

/-- The text has digits and five other characters only. -/
theorem not_mem_isoformat {c : Char} (hdigit : c.isDigit = false)
    (hsign : c ∉ ['-', '+', ':', '.', 'T']) (t : DateTime) : c ∉ t.isoformat := by
  have hpad := not_mem_pad hdigit
  simp only [List.mem_cons, List.not_mem_nil, or_false, not_or] at hsign
  have hfraction : ∀ n, c ∉ fraction n := by
    intro n
    rw [fraction]
    split <;> simp [hpad, hsign]
  have hseconds : ∀ n, c ∉ offsetSeconds n := by
    intro n
    rw [offsetSeconds]
    split <;> simp [hpad, hfraction, hsign]
  have hoffset : c ∉ t.offset.elim [] UtcOffset.text := by
    cases t.offset with
    | none => simp
    | some o =>
      rw [Option.elim_some, UtcOffset.text]
      split <;> simp [hpad, hseconds, hsign]
  simp [isoformat, stamp, hpad, hfraction, hoffset, hsign]

end DateTime

section Joined
variable {β : Type*}

/-- Fields without the separator are found again in the text that joins them. -/
theorem intercalate_inj [DecidableEq β] {sep : β} {fields fields' : List (List β)}
    (h : ∀ w ∈ fields, sep ∉ w) (h' : ∀ w ∈ fields', sep ∉ w) (hne : fields ≠ [])
    (hne' : fields' ≠ [])
    (heq : List.intercalate [sep] fields = List.intercalate [sep] fields') : fields = fields' := by
  rw [← List.splitOn_intercalate sep h hne, heq, List.splitOn_intercalate sep h' hne']

/-- Two texts cut at their first separator. -/
theorem eq_of_append_separator {c : β} {u v s t : List β} (hu : c ∉ u) (hv : c ∉ v)
    (h : u ++ c :: s = v ++ c :: t) : u = v ∧ s = t := by
  induction u generalizing v with
  | nil =>
    cases v with
    | nil => exact ⟨rfl, (List.cons.inj h).2⟩
    | cons x v => exact absurd (List.cons.inj h).1 fun he => hv (he ▸ List.mem_cons_self ..)
  | cons x u ih =>
    cases v with
    | nil => exact absurd (List.cons.inj h).1.symm fun he => hu (he ▸ List.mem_cons_self ..)
    | cons y v =>
      obtain ⟨hxy, htail⟩ := List.cons.inj h
      obtain ⟨huv, hst⟩ := ih (fun hc => hu (List.mem_cons_of_mem _ hc))
        (fun hc => hv (List.mem_cons_of_mem _ hc)) htail
      exact ⟨by rw [hxy, huv], hst⟩

end Joined

end IsoFormat
