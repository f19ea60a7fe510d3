import Mathlib.Data.List.Basic
import SteamAgent.Stdlib.Calendar

/-!
# Instants and their ISO 8601 texts

`datetime` values in UTC with microsecond resolution, the text that `isoformat`
prints for them, and the order of these texts.  `isoformat` prints six digits
of a fraction, or none when the fraction is zero.

There are five groups.

* Decimal fields of a fixed width, and the order of texts that share their
  widths.
* `Instant`.
* `Instant.text`, and `Instant.parse`, which reads it back.
* The order of the texts.  It is the order of the instants, except for two
  instants of one second of which one is a whole second.
* `Aware`, a datetime with a wall clock and an offset from UTC.
-/

namespace Datetime

open Calendar (Date)

/-! ## Fields of a fixed width -/

/-- `f"{n:0{w}d}"`, for a number of at most `w` digits. -/
def pad : Nat → Nat → List Char
  | 0, _ => []
  | w + 1, n => pad w (n / 10) ++ [Nat.digitChar (n % 10)]

@[simp] theorem length_pad (w n : Nat) : (pad w n).length = w := by
  induction w generalizing n with
  | zero => rfl
  | succ w ih => simp [pad, ih]

/-- Texts with first parts of one length compare by these parts first. -/
theorem append_lt_append {p q s t : List Char} (h : p.length = q.length) :
    p ++ s < q ++ t ↔ p < q ∨ p = q ∧ s < t := by
  induction p generalizing q with
  | nil =>
    obtain rfl := List.length_eq_zero_iff.mp h.symm
    simp
  | cons a p ih =>
    cases q with
    | nil => simp at h
    | cons b q =>
      simp only [List.cons_append, List.cons_lt_cons_iff, ih (Nat.succ.inj h), List.cons.injEq]
      by_cases hab : a = b
      · simp [hab]
      · simp [hab]

theorem digitChar_lt {a b : Nat} (ha : a < 10) (hb : b < 10) :
    Nat.digitChar a < Nat.digitChar b ↔ a < b := by
  have hall : ∀ a < 10, ∀ b < 10, (Nat.digitChar a < Nat.digitChar b ↔ a < b) := by decide
  exact hall a ha b hb

theorem pad_injective {w n m : Nat} (hn : n < 10 ^ w) (hm : m < 10 ^ w)
    (h : pad w n = pad w m) : n = m := by
  induction w generalizing n m with
  | zero => omega
  | succ w ih =>
    have hdigits : ∀ a < 10, ∀ b < 10, Nat.digitChar a = Nat.digitChar b → a = b := by decide
    obtain ⟨hhead, hlast⟩ := List.append_inj h (by simp)
    have hdiv := ih (by omega) (by omega) hhead
    have hmod := hdigits _ (Nat.mod_lt n (by decide)) _ (Nat.mod_lt m (by decide))
      (List.cons.inj hlast).1
    omega

theorem pad_lt_pad {w n m : Nat} (hn : n < 10 ^ w) (hm : m < 10 ^ w) :
    pad w n < pad w m ↔ n < m := by
  induction w generalizing n m with
  | zero => simp [pad]; omega
  | succ w ih =>
    have hdiv := ih (n := n / 10) (m := m / 10) (by omega) (by omega)
    have hinj : pad w (n / 10) = pad w (m / 10) ↔ n / 10 = m / 10 :=
      ⟨pad_injective (by omega) (by omega), fun h => by rw [h]⟩
    have hdigit := digitChar_lt (Nat.mod_lt n (by decide : 0 < 10))
      (Nat.mod_lt m (by decide : 0 < 10))
    rw [pad, pad, append_lt_append (by simp), hdiv, hinj, List.cons_lt_cons_iff, hdigit]
    simp only [List.lt_irrefl, and_false, or_false]
    omega

/-! ## Instants -/

/-- Microseconds from 0001-01-01 to the end of the year 9999. -/
def maxMicroseconds : Nat :=
  3652059 * 86400 * 1000000

/-- A `datetime` in UTC, as microseconds since 0001-01-01T00:00:00. -/
structure Instant where
  us : Nat
  bound : us < maxMicroseconds
deriving DecidableEq

namespace Instant

instance : LT Instant := ⟨fun a b => a.us < b.us⟩

instance : LE Instant := ⟨fun a b => a.us ≤ b.us⟩

instance (a b : Instant) : Decidable (a < b) := Nat.decLt a.us b.us

instance (a b : Instant) : Decidable (a ≤ b) := Nat.decLe a.us b.us

theorem lt_iff {a b : Instant} : a < b ↔ a.us < b.us := Iff.rfl

theorem le_iff {a b : Instant} : a ≤ b ↔ a.us ≤ b.us := Iff.rfl

theorem ext_us {a b : Instant} (h : a.us = b.us) : a = b := by
  cases a
  cases b
  simpa using h

/-- The instant with a number of microseconds, or `OverflowError`. -/
def ofUs (us : Nat) : Option Instant :=
  if h : us < maxMicroseconds then some ⟨us, h⟩ else none

/-- `a + timedelta(microseconds=us)`. -/
def add (a : Instant) (us : Nat) : Option Instant :=
  ofUs (a.us + us)

theorem us_of_add {a b : Instant} {us : Nat} (h : a.add us = some b) : b.us = a.us + us := by
  unfold add ofUs at h
  split at h
  · rw [← Option.some.inj h]
  · simp at h

/-- The whole seconds. -/
def second (a : Instant) : Nat :=
  a.us / 1000000

/-- `microsecond`. -/
def micro (a : Instant) : Nat :=
  a.us % 1000000

theorem second_mul_lt (a : Instant) : a.second * 1000000 < maxMicroseconds :=
  Nat.lt_of_le_of_lt (Nat.div_mul_le_self _ _) a.bound

/-- `value.replace(microsecond=0)`. -/
def wholeSecond (a : Instant) : Instant :=
  ⟨a.second * 1000000, a.second_mul_lt⟩

theorem micro_lt (a : Instant) : a.micro < 1000000 :=
  Nat.mod_lt _ (by decide)

theorem second_lt (a : Instant) : a.second < 3652059 * 86400 := by
  have h := a.bound
  unfold maxMicroseconds at h
  unfold second
  omega

theorem lt_iff_second {a b : Instant} :
    a < b ↔ a.second < b.second ∨ a.second = b.second ∧ a.micro < b.micro := by
  simp only [lt_iff, second, micro]
  omega

/-- One second, and exactly one of the two is a whole second. -/
def Confusable (a b : Instant) : Prop :=
  a.second = b.second ∧ (a.micro = 0 ↔ b.micro ≠ 0)

instance (a b : Instant) : Decidable (Confusable a b) :=
  inferInstanceAs (Decidable (_ ∧ _))

theorem Confusable.symm {a b : Instant} (h : Confusable a b) : Confusable b a :=
  ⟨h.1.symm, by have := h.2; omega⟩

end Instant

/-! ## Texts -/

/-- `YYYY-MM-DD`. -/
def dateText (date : Date) : List Char :=
  pad 4 date.year ++ ('-' :: (pad 2 date.month ++ ('-' :: pad 2 date.day)))

/-- `HH:MM:SS`, for a second of a day. -/
def timeText (n : Nat) : List Char :=
  pad 2 (n / 3600) ++ (':' :: (pad 2 (n % 3600 / 60) ++ (':' :: pad 2 (n % 60))))

/-- The text of a whole second. -/
def secondText (n : Nat) : List Char :=
  dateText (Date.fromDays (n / 86400)) ++ ('T' :: timeText (n % 86400))

/-- The text of a fraction, and the zone. -/
def suffix (micro : Nat) : List Char :=
  if micro = 0 then ['Z'] else '.' :: (pad 6 micro ++ ['Z'])

/-- `isoformat().replace("+00:00", "Z")`. -/
def Instant.text (a : Instant) : String :=
  String.ofList (secondText a.second ++ suffix a.micro)

/-! ## Reading -/

/-- The value of a digit. -/
def digit (c : Char) : Option Nat :=
  if c.isDigit then some (c.toNat - '0'.toNat) else none

/-- A field of `w` digits, and the rest of the text. -/
def readField : Nat → Nat → List Char → Option (Nat × List Char)
  | 0, n, rest => some (n, rest)
  | _ + 1, _, [] => none
  | w + 1, n, c :: rest => (digit c).bind fun d => readField w (10 * n + d) rest

/-- The rest of the text after a character. -/
def expect (c : Char) : List Char → Option (List Char)
  | [] => none
  | d :: rest => if d = c then some rest else none

/-- A field and the separator before it. -/
def readPart (c : Char) (w : Nat) (text : List Char) : Option (Nat × List Char) :=
  (expect c text).bind fun rest => readField w 0 rest

/-- The fraction and the zone. -/
def readSuffix : List Char → Option Nat
  | ['Z'] => some 0
  | text => (readPart '.' 6 text).bind fun (micro, rest) =>
    if rest = ['Z'] then some micro else none

/-- `datetime.fromisoformat`, on the texts that `Instant.text` prints. -/
def Instant.parse (text : String) : Option Instant := do
  let (year, rest) ← readField 4 0 text.toList
  let (month, rest) ← readPart '-' 2 rest
  let (day, rest) ← readPart '-' 2 rest
  let (hour, rest) ← readPart 'T' 2 rest
  let (minute, rest) ← readPart ':' 2 rest
  let (second, rest) ← readPart ':' 2 rest
  let micro ← readSuffix rest
  let days := Date.toDays ⟨year, month, day⟩
  if Date.fromDays days = ⟨year, month, day⟩ ∧ hour < 24 ∧ minute < 60 ∧ second < 60 then
    ofUs ((days * 86400 + hour * 3600 + minute * 60 + second) * 1000000 + micro)
  else
    none

theorem digit_digitChar {n : Nat} (h : n < 10) : digit (Nat.digitChar n) = some n := by
  have hall : ∀ n < 10, digit (Nat.digitChar n) = some n := by decide
  exact hall n h

theorem readField_add {w n : Nat} (h : n < 10 ^ w) (v m : Nat) (rest : List Char) :
    readField (w + v) m (pad w n ++ rest) = readField v (10 ^ w * m + n) rest := by
  induction w generalizing n v rest with
  | zero =>
    obtain rfl : n = 0 := by omega
    simp [pad]
  | succ w ih =>
    have hw : w + 1 + v = w + (v + 1) := by omega
    have hval : 10 * (10 ^ w * m + n / 10) + n % 10 = 10 ^ (w + 1) * m + n := by
      rw [Nat.pow_succ, Nat.mul_comm (10 ^ w) 10, Nat.mul_assoc]
      omega
    rw [pad, List.append_assoc, hw, ih (by omega), List.singleton_append, readField,
      digit_digitChar (Nat.mod_lt n (by decide)), Option.bind_some, hval]

theorem readField_pad {w n : Nat} (h : n < 10 ^ w) (rest : List Char) :
    readField w 0 (pad w n ++ rest) = some (n, rest) := by
  have hadd := readField_add h 0 0 rest
  rwa [Nat.add_zero, Nat.mul_zero, Nat.zero_add] at hadd

theorem readPart_pad {w n : Nat} (h : n < 10 ^ w) (c : Char) (rest : List Char) :
    readPart c w (c :: (pad w n ++ rest)) = some (n, rest) := by
  rw [readPart, expect, if_pos rfl, Option.bind_some, readField_pad h]

theorem readSuffix_suffix {micro : Nat} (h : micro < 1000000) :
    readSuffix (suffix micro) = some micro := by
  unfold suffix
  split
  · rename_i h0
    rw [h0]
    rfl
  · have hpart := readPart_pad (w := 6) h '.' ['Z']
    unfold readSuffix
    split
    · rename_i heq
      simp at heq
    · rw [hpart]
      rfl

/-- The fields of an instant, as the date of its day and the time of day. -/
theorem Instant.us_eq (a : Instant) :
    (a.second / 86400 * 86400 + a.second % 86400 / 3600 * 3600 +
      a.second % 86400 % 3600 / 60 * 60 + a.second % 86400 % 60) * 1000000 + a.micro = a.us := by
  unfold Instant.second Instant.micro
  omega

/-- The fields of a text fit their widths. -/
theorem date_fields (days : Nat) (h : days < 3652059) :
    (Date.fromDays days).year < 10 ^ 4 ∧ (Date.fromDays days).month < 10 ^ 2 ∧
      (Date.fromDays days).day < 10 ^ 2 := by
  have hyear := Date.fromDays_year_le h
  have hin := Date.inYear_fromDays days
  have hmonth := hin.month_le
  have hday := hin.day_le
  have hlen := Calendar.daysInMonth_le (Calendar.isLeap (Date.fromDays days).year)
    (Date.fromDays days).month
  omega

/-- Reading gives back what was printed. -/
@[simp] theorem Instant.parse_text (a : Instant) : Instant.parse a.text = some a := by
  have hdays : a.second / 86400 < 3652059 := by
    have hlt := a.second_lt
    omega
  obtain ⟨hyear, hmonth, hday⟩ := date_fields (a.second / 86400) hdays
  have hhour : a.second % 86400 / 3600 < 10 ^ 2 := by omega
  have hminute : a.second % 86400 % 3600 / 60 < 10 ^ 2 := by omega
  have hsecond : a.second % 86400 % 60 < 10 ^ 2 := by omega
  have htext : a.text.toList =
      pad 4 (Date.fromDays (a.second / 86400)).year ++
        ('-' :: (pad 2 (Date.fromDays (a.second / 86400)).month ++
          ('-' :: (pad 2 (Date.fromDays (a.second / 86400)).day ++
            ('T' :: (pad 2 (a.second % 86400 / 3600) ++
              (':' :: (pad 2 (a.second % 86400 % 3600 / 60) ++
                (':' :: (pad 2 (a.second % 86400 % 60) ++ suffix a.micro))))))))))  := by
    simp [Instant.text, secondText, dateText, timeText]
  have hus : ofUs a.us = some a := by
    rw [ofUs, dif_pos a.bound]
  rw [Instant.parse, htext, readField_pad hyear]
  simp only [Option.bind_eq_bind, Option.bind_some, readPart_pad hmonth, readPart_pad hday,
    readPart_pad hhour, readPart_pad hminute, readPart_pad hsecond,
    readSuffix_suffix a.micro_lt]
  rw [Date.toDays_fromDays, if_pos ⟨rfl, by omega, by omega, by omega⟩, Instant.us_eq, hus]

theorem Instant.text_injective {a b : Instant} (h : a.text = b.text) : a = b := by
  have hparse := congrArg Instant.parse h
  rw [Instant.parse_text, Instant.parse_text] at hparse
  exact Option.some.inj hparse

/-! ## The order of texts -/

theorem dateText_lt {a b : Date} (h : a.Before b)
    (ha : a.year < 10 ^ 4 ∧ a.month < 10 ^ 2 ∧ a.day < 10 ^ 2)
    (hb : b.year < 10 ^ 4 ∧ b.month < 10 ^ 2 ∧ b.day < 10 ^ 2) : dateText a < dateText b := by
  rw [dateText, dateText, append_lt_append (by simp), pad_lt_pad ha.1 hb.1]
  rcases h with hyear | ⟨hyear, h⟩
  · exact Or.inl hyear
  · refine Or.inr ⟨by rw [hyear], ?_⟩
    rw [List.cons_lt_cons_iff, append_lt_append (by simp), pad_lt_pad ha.2.1 hb.2.1]
    refine Or.inr ⟨rfl, ?_⟩
    rcases h with hmonth | ⟨hmonth, hday⟩
    · exact Or.inl hmonth
    · refine Or.inr ⟨by rw [hmonth], ?_⟩
      rw [List.cons_lt_cons_iff, pad_lt_pad ha.2.2 hb.2.2]
      exact Or.inr ⟨rfl, hday⟩

theorem timeText_lt {n m : Nat} (h : n < m) (hm : m < 86400) : timeText n < timeText m := by
  have hhour : pad 2 (n / 3600) < pad 2 (m / 3600) ↔ n / 3600 < m / 3600 :=
    pad_lt_pad (by omega) (by omega)
  have hminute : pad 2 (n % 3600 / 60) < pad 2 (m % 3600 / 60) ↔ n % 3600 / 60 < m % 3600 / 60 :=
    pad_lt_pad (by omega) (by omega)
  have hsecond : pad 2 (n % 60) < pad 2 (m % 60) ↔ n % 60 < m % 60 :=
    pad_lt_pad (by omega) (by omega)
  rw [timeText, timeText, append_lt_append (by simp), hhour]
  by_cases h1 : n / 3600 < m / 3600
  · exact Or.inl h1
  · have h1' : n / 3600 = m / 3600 := by omega
    refine Or.inr ⟨by rw [h1'], ?_⟩
    rw [List.cons_lt_cons_iff, append_lt_append (by simp), hminute]
    refine Or.inr ⟨rfl, ?_⟩
    by_cases h2 : n % 3600 / 60 < m % 3600 / 60
    · exact Or.inl h2
    · have h2' : n % 3600 / 60 = m % 3600 / 60 := by omega
      refine Or.inr ⟨by rw [h2'], ?_⟩
      rw [List.cons_lt_cons_iff, hsecond]
      exact Or.inr ⟨rfl, by omega⟩

theorem length_dateText (date : Date) : (dateText date).length = 10 := by
  simp [dateText]

theorem length_secondText (n : Nat) : (secondText n).length = 19 := by
  simp [secondText, length_dateText, timeText]

/-- Whole seconds are ordered like their texts. -/
theorem secondText_lt {n m : Nat} (h : n < m) (hm : m < 3652059 * 86400) :
    secondText n < secondText m := by
  rw [secondText, secondText, append_lt_append (by simp [length_dateText])]
  by_cases hday : n / 86400 < m / 86400
  · exact Or.inl (dateText_lt (Date.before_fromDays hday) (date_fields _ (by omega))
      (date_fields _ (by omega)))
  · have heq : n / 86400 = m / 86400 := by omega
    refine Or.inr ⟨by rw [heq], ?_⟩
    rw [List.cons_lt_cons_iff]
    exact Or.inr ⟨rfl, timeText_lt (by omega) (Nat.mod_lt _ (by decide))⟩

theorem secondText_lt_iff {n m : Nat} (hn : n < 3652059 * 86400) (hm : m < 3652059 * 86400) :
    secondText n < secondText m ↔ n < m := by
  constructor
  · intro h
    by_contra hle
    rcases Nat.lt_or_eq_of_le (Nat.le_of_not_lt hle) with hlt | heq
    · exact List.lt_asymm h (secondText_lt hlt hn)
    · rw [heq] at h
      exact List.lt_irrefl _ h
  · exact fun h => secondText_lt h hm

theorem secondText_inj {n m : Nat} (hn : n < 3652059 * 86400) (hm : m < 3652059 * 86400) :
    secondText n = secondText m ↔ n = m := by
  constructor
  · intro h
    have hlt := secondText_lt_iff hn hm
    have hgt := secondText_lt_iff hm hn
    rw [h] at hlt hgt
    have hirr : ¬ secondText m < secondText m := List.lt_irrefl _
    have hle : ¬ n < m := fun hc => hirr (hlt.mpr hc)
    have hge : ¬ m < n := fun hc => hirr (hgt.mpr hc)
    omega
  · exact fun h => by rw [h]

/-- The text of a fraction: none comes after any. -/
theorem suffix_lt_iff {n m : Nat} (hn : n < 1000000) (hm : m < 1000000) :
    suffix n < suffix m ↔ n ≠ 0 ∧ (m = 0 ∨ n < m) := by
  unfold suffix
  by_cases hn0 : n = 0 <;> by_cases hm0 : m = 0
  · simp [hn0, hm0]
  · have hzone : ¬ 'Z' < '.' := by decide
    simp [hn0, hm0, List.cons_lt_cons_iff, hzone]
  · have hzone : '.' < 'Z' := by decide
    simp [hn0, hm0, List.cons_lt_cons_iff, hzone]
  · rw [if_neg hn0, if_neg hm0, List.cons_lt_cons_iff, append_lt_append (by simp),
      pad_lt_pad (by omega) (by omega)]
    simp [hn0, hm0]

namespace Instant

variable {a b : Instant}

/-- The order of the texts. -/
theorem text_lt_iff : a.text < b.text ↔ a.second < b.second ∨
    a.second = b.second ∧ a.micro ≠ 0 ∧ (b.micro = 0 ∨ a.micro < b.micro) := by
  rw [String.lt_iff, text, text, String.toList_ofList, String.toList_ofList,
    append_lt_append (by rw [length_secondText, length_secondText]),
    secondText_lt_iff a.second_lt b.second_lt, secondText_inj a.second_lt b.second_lt,
    suffix_lt_iff a.micro_lt b.micro_lt]

theorem text_inj : a.text = b.text ↔ a = b :=
  ⟨text_injective, fun h => by rw [h]⟩

/-- Texts are ordered like the instants, exactly when the two are not
confusable. -/
theorem text_lt_iff_lt : (a.text < b.text ↔ a < b) ↔ ¬Confusable a b := by
  rw [text_lt_iff, lt_iff_second, Confusable]
  omega

theorem text_lt_of_not_confusable (h : ¬Confusable a b) : a.text < b.text ↔ a < b :=
  text_lt_iff_lt.mpr h

/-- The same for the weak order. -/
theorem text_le_iff_le : (a.text ≤ b.text ↔ a ≤ b) ↔ ¬Confusable a b := by
  have hlt := text_lt_iff_lt (a := b) (b := a)
  have hle : a.text ≤ b.text ↔ ¬ b.text < a.text := String.not_lt.symm
  have hle' : a ≤ b ↔ ¬ b < a := Nat.not_lt.symm
  have hsymm : Confusable b a ↔ Confusable a b := ⟨Confusable.symm, Confusable.symm⟩
  rw [hle, hle', not_iff_not, hlt, hsymm]

end Instant

/-! ## Aware datetimes -/

/-- Microseconds of a day. -/
def dayMicroseconds : Nat :=
  86400 * 1000000

/-- A `datetime` with a time zone: what its clock shows, and the offset from
UTC. -/
structure Aware where
  wall : Instant
  offset : Int
  bound : -(dayMicroseconds : Int) < offset ∧ offset < dayMicroseconds

namespace Aware

/-- Microseconds since 0001-01-01T00:00:00 UTC.  `datetime` compares these. -/
def position (a : Aware) : Int :=
  a.wall.us - a.offset

/-- `astimezone(timezone.utc)`, or `OverflowError`. -/
def utc (a : Aware) : Option Instant :=
  if 0 ≤ a.position then Instant.ofUs a.position.toNat else none

/-- A datetime in UTC. -/
def ofInstant (i : Instant) : Aware :=
  ⟨i, 0, by decide⟩

@[simp] theorem position_ofInstant (i : Instant) : (ofInstant i).position = i.us := by
  simp [ofInstant, position]

@[simp] theorem utc_ofInstant (i : Instant) : (ofInstant i).utc = some i := by
  rw [utc, position_ofInstant, if_pos (by omega), Int.toNat_natCast, Instant.ofUs,
    dif_pos i.bound]

theorem us_of_utc {a : Aware} {i : Instant} (h : a.utc = some i) : (i.us : Int) = a.position := by
  unfold utc at h
  split at h
  · rename_i hpos
    unfold Instant.ofUs at h
    split at h
    · rw [← Option.some.inj h]
      exact Int.toNat_of_nonneg hpos
    · simp at h
  · simp at h

end Aware

end Datetime
