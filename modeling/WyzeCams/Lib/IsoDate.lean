import Mathlib.Algebra.Group.Nat.Defs
import Mathlib.Tactic.Common

/-! `Date.prototype.toISOString`: the time values, their days in the Gregorian calendar, and the
text; the date in the text tells the day. -/
namespace IsoDate

structure Time where
  ms : Int
  lower : -8640000000000000 ≤ ms
  upper : ms ≤ 8640000000000000

/-- The UTC day, counted from the first one of 1970. -/
def Time.day (t : Time) : Int := t.ms / 86400000

structure Civil where
  year : Int
  month : Int
  dayOfMonth : Int

/-- The day within years that start in March, so that the leap day is the last one: eras of 400
years, in them centuries, in these cycles of four years, and in these years. -/
structure Count where
  era : Int
  century : Int
  cycle : Int
  year : Int
  dayOfYear : Int

def count (day : Int) : Count :=
  let z := day + 719468
  let dayOfEra := z % 146097
  let century := min 3 (dayOfEra / 36524)
  let dayOfCentury := dayOfEra - 36524 * century
  let cycle := dayOfCentury / 1461
  let dayOfCycle := dayOfCentury - 1461 * cycle
  let year := min 3 (dayOfCycle / 365)
  ⟨z / 146097, century, cycle, year, dayOfCycle - 365 * year⟩

def Count.civil (c : Count) : Civil :=
  let marchMonth := (5 * c.dayOfYear + 2) / 153
  let month := if marchMonth < 10 then marchMonth + 3 else marchMonth - 9
  let year := 400 * c.era + 100 * c.century + 4 * c.cycle + c.year
  ⟨if month ≤ 2 then year + 1 else year, month,
    c.dayOfYear - (153 * marchMonth + 2) / 5 + 1⟩

def civil (day : Int) : Civil := (count day).civil

def padded : Nat → Nat → List Char
  | 0, _ => []
  | k + 1, n => padded k (n / 10) ++ [Char.ofNat (48 + n % 10)]

def yearText (year : Int) : List Char :=
  if 0 ≤ year ∧ year ≤ 9999 then padded 4 year.toNat
  else (if year < 0 then '-' else '+') :: padded 6 year.natAbs

def Civil.text (c : Civil) : List Char :=
  yearText c.year ++ ('-' :: padded 2 c.month.toNat ++ ('-' :: padded 2 c.dayOfMonth.toNat))

def timeText (msOfDay : Nat) : List Char :=
  padded 2 (msOfDay / 3600000) ++ (':' :: padded 2 (msOfDay / 60000 % 60) ++
    (':' :: padded 2 (msOfDay / 1000 % 60) ++ ('.' :: padded 3 (msOfDay % 1000) ++ ['Z'])))

def Time.date (t : Time) : List Char := (civil t.day).text

def toISOString (t : Time) : List Char :=
  t.date ++ 'T' :: timeText (t.ms % 86400000).toNat

structure Count.InRange (c : Count) : Prop where
  century : 0 ≤ c.century ∧ c.century ≤ 3
  cycle : 0 ≤ c.cycle ∧ c.cycle ≤ 24
  year : 0 ≤ c.year ∧ c.year ≤ 3
  dayOfYear : 0 ≤ c.dayOfYear ∧ c.dayOfYear ≤ 365

theorem inRange_count (day : Int) : (count day).InRange := by
  constructor <;> simp only [count] <;> omega

/-- The day is what its parts add up to. -/
theorem day_eq (day : Int) :
    day = 146097 * (count day).era + 36524 * (count day).century + 1461 * (count day).cycle +
      365 * (count day).year + (count day).dayOfYear - 719468 := by
  simp only [count]
  omega

/-- The parts are read off the date. -/
theorem count_inj {c d : Count} (hc : c.InRange) (hd : d.InRange) (h : c.civil = d.civil) :
    c = d := by
  obtain ⟨⟨hc1, hc2⟩, ⟨hc3, hc4⟩, ⟨hc5, hc6⟩, hc7, hc8⟩ := hc
  obtain ⟨⟨hd1, hd2⟩, ⟨hd3, hd4⟩, ⟨hd5, hd6⟩, hd7, hd8⟩ := hd
  simp only [Count.civil, Civil.mk.injEq] at h
  obtain ⟨hyear, hmonth, hday⟩ := h
  have hmarch : (5 * c.dayOfYear + 2) / 153 = (5 * d.dayOfYear + 2) / 153 := by
    split_ifs at hmonth <;> omega
  have hdayOfYear : c.dayOfYear = d.dayOfYear := by omega
  have hsum : 400 * c.era + 100 * c.century + 4 * c.cycle + c.year =
      400 * d.era + 100 * d.century + 4 * d.cycle + d.year := by
    rw [hmonth] at hyear
    split_ifs at hyear <;> omega
  obtain ⟨_, _, _, _, _⟩ := c
  obtain ⟨_, _, _, _, _⟩ := d
  simp only [Count.mk.injEq]
  dsimp only at *
  omega

theorem civil_inj {day day' : Int} (h : civil day = civil day') : day = day' := by
  have hcount := count_inj (inRange_count day) (inRange_count day') h
  rw [day_eq day, day_eq day', hcount]

theorem length_padded (k n : Nat) : (padded k n).length = k := by
  induction k generalizing n with
  | zero => rfl
  | succ k ih => rw [padded, List.length_append, ih, List.length_singleton]

theorem digit_inj {a b : Nat} (ha : a < 10) (hb : b < 10)
    (h : Char.ofNat (48 + a) = Char.ofNat (48 + b)) : a = b :=
  (by decide : ∀ a < 10, ∀ b < 10, Char.ofNat (48 + a) = Char.ofNat (48 + b) → a = b) a ha b hb h

theorem padded_inj {k n m : Nat} (hn : n < 10 ^ k) (hm : m < 10 ^ k)
    (h : padded k n = padded k m) : n = m := by
  induction k generalizing n m with
  | zero => omega
  | succ k ih =>
    rw [padded, padded] at h
    obtain ⟨hfront, hlast⟩ := List.append_inj' h rfl
    have hdigit := digit_inj (by omega) (by omega) (List.cons.inj hlast).1
    rw [pow_succ] at hn hm
    have hrest := ih (n := n / 10) (m := m / 10) (by omega) (by omega) hfront
    omega

theorem yearText_short {y : Int} (h : 0 ≤ y ∧ y ≤ 9999) : yearText y = padded 4 y.toNat := if_pos h

theorem yearText_long {y : Int} (h : ¬ (0 ≤ y ∧ y ≤ 9999)) :
    yearText y = (if y < 0 then '-' else '+') :: padded 6 y.natAbs := if_neg h

theorem yearText_inj {y y' : Int} (hy : y.natAbs < 10 ^ 6) (hy' : y'.natAbs < 10 ^ 6)
    (h : yearText y = yearText y') : y = y' := by
  have hlen := congrArg List.length h
  by_cases hshort : 0 ≤ y ∧ y ≤ 9999
  · by_cases hshort' : 0 ≤ y' ∧ y' ≤ 9999
    · rw [yearText_short hshort, yearText_short hshort'] at h
      have hnat := padded_inj (by omega) (by omega) h
      omega
    · rw [yearText_short hshort, yearText_long hshort', List.length_cons, length_padded,
        length_padded] at hlen
      omega
  · by_cases hshort' : 0 ≤ y' ∧ y' ≤ 9999
    · rw [yearText_long hshort, yearText_short hshort', List.length_cons, length_padded,
        length_padded] at hlen
      omega
    · rw [yearText_long hshort, yearText_long hshort'] at h
      obtain ⟨hsign, hdigits⟩ := List.cons.inj h
      have hnat := padded_inj hy hy' hdigits
      have hsame : y < 0 ↔ y' < 0 := by
        split_ifs at hsign with h1 h2 h2
        · exact ⟨fun _ => h2, fun _ => h1⟩
        · exact absurd hsign (by decide)
        · exact absurd hsign (by decide)
        · exact ⟨fun h => absurd h h1, fun h => absurd h h2⟩
      omega

/-- A date of which the text is told: six digits are enough for the year, two for the others. -/
structure Civil.Fits (c : Civil) : Prop where
  year : c.year.natAbs < 10 ^ 6
  month : 0 ≤ c.month ∧ c.month < 100
  dayOfMonth : 0 ≤ c.dayOfMonth ∧ c.dayOfMonth < 100

theorem Civil.text_inj {c d : Civil} (hc : c.Fits) (hd : d.Fits) (h : c.text = d.text) : c = d := by
  rw [Civil.text, Civil.text] at h
  obtain ⟨hyear, hrest⟩ := List.append_inj' h (by simp [length_padded])
  obtain ⟨hmonth, hday⟩ := List.append_inj (List.cons.inj hrest).2 (by simp [length_padded])
  have hy := yearText_inj hc.year hd.year hyear
  have hm := padded_inj (by have := hc.month; omega) (by have := hd.month; omega) hmonth
  have hdom := padded_inj (by have := hc.dayOfMonth; omega) (by have := hd.dayOfMonth; omega)
    (List.cons.inj hday).2
  obtain ⟨-, ⟨hc1, -⟩, hc2, -⟩ := hc
  obtain ⟨-, ⟨hd1, -⟩, hd2, -⟩ := hd
  obtain ⟨_, _, _⟩ := c
  obtain ⟨_, _, _⟩ := d
  simp only [Civil.mk.injEq]
  dsimp only at *
  omega

theorem fits_date (t : Time) : (civil t.day).Fits := by
  obtain ⟨ms, hlower, hupper⟩ := t
  obtain ⟨⟨h1, h2⟩, ⟨h3, h4⟩, ⟨h5, h6⟩, h7, h8⟩ := inRange_count (ms / 86400000)
  have hera : -800 ≤ (count (ms / 86400000)).era ∧ (count (ms / 86400000)).era ≤ 800 := by
    simp only [count]
    omega
  constructor
  · simp only [Time.day, civil, Count.civil]
    split_ifs <;> omega
  · simp only [Time.day, civil, Count.civil]
    split_ifs <;> omega
  · simp only [Time.day, civil, Count.civil]
    omega

/-- Two times have the same date exactly when they are of the same day. -/
theorem date_eq_iff {s t : Time} : s.date = t.date ↔ s.day = t.day := by
  constructor
  · intro h
    exact civil_inj (Civil.text_inj (fits_date s) (fits_date t) h)
  · intro h
    rw [Time.date, Time.date, h]

structure Foreign (c : Char) : Prop where
  digit : ∀ d < 10, c ≠ Char.ofNat (48 + d)
  minus : c ≠ '-'
  plus : c ≠ '+'

theorem Foreign.not_mem_padded {c : Char} (h : Foreign c) (k n : Nat) : c ∉ padded k n := by
  induction k generalizing n with
  | zero => exact List.not_mem_nil
  | succ k ih =>
    rw [padded, List.mem_append, List.mem_singleton, not_or]
    exact ⟨ih _, h.digit _ (Nat.mod_lt _ (by decide))⟩

theorem Foreign.not_mem_date {c : Char} (h : Foreign c) (t : Time) : c ∉ t.date := by
  have hyear : ∀ y, c ∉ yearText y := by
    intro y
    rw [yearText]
    split_ifs
    · exact h.not_mem_padded _ _
    · rw [List.mem_cons, not_or]
      exact ⟨h.minus, h.not_mem_padded _ _⟩
    · rw [List.mem_cons, not_or]
      exact ⟨h.plus, h.not_mem_padded _ _⟩
  rw [Time.date, Civil.text, List.cons_append, List.mem_append, List.mem_cons, List.mem_append,
    List.mem_cons, not_or, not_or, not_or, not_or]
  exact ⟨hyear _, h.minus, h.not_mem_padded _ _, h.minus, h.not_mem_padded _ _⟩

/-- The date ends at a character that no date has. -/
theorem takeWhile_date {c : Char} (h : Foreign c) (t : Time) (rest : List Char) :
    (t.date ++ c :: rest).takeWhile (fun d => d ≠ c) = t.date := by
  rw [List.takeWhile_append_of_pos, List.takeWhile_cons_of_neg (by simp), List.append_nil]
  intro d hd
  rw [decide_eq_true_iff]
  intro heq
  exact h.not_mem_date t (heq ▸ hd)

theorem takeWhile_toISOString (t : Time) :
    (toISOString t).takeWhile (fun c => c ≠ 'T') = t.date :=
  takeWhile_date ⟨by decide, by decide, by decide⟩ t _

example : toISOString ⟨951825600123, by decide, by decide⟩ =
    "2000-02-29T12:00:00.123Z".toList := by decide

end IsoDate
