import Mathlib.Data.String.Basic
import RowFlow.Time

/-!
# The order of times

The texts of times are in the order of the times, within the years that have four digits and outside
leap seconds (`Time.columnText_le_iff`). Texts are compared from left to right, and so are the parts
of a time: what comes later in a text matters only if all before it is the same.
-/

namespace RowFlow.Time

/-! ## Times -/

section

variable {a b c : Time}

theorem le_iff : a.le b ↔ a.second < b.second ∨ a.second = b.second ∧ a.nano ≤ b.nano := by
  simp [le]

theorem le_total (a b : Time) : a.le b ∨ b.le a := by
  simp only [le_iff]
  omega

theorem le_trans (hab : a.le b) (hbc : b.le c) : a.le c := by
  rw [le_iff] at *
  omega

theorem le_antisymm (hab : a.le b) (hba : b.le a) : a = b := by
  rw [le_iff] at *
  have hsecond : a.second = b.second := by omega
  have hnano : a.nano = b.nano := by omega
  cases a
  cases hsecond
  cases hnano
  rfl

end

/-! ## Digits -/

/-- The last digits of a number, so many of them. -/
def digits : Nat → Nat → List Char
  | 0, _ => []
  | width + 1, n => digits width (n / 10) ++ [(n % 10).digitChar]

theorem length_digits (width n : Nat) : (digits width n).length = width := by
  induction width generalizing n with
  | zero => rfl
  | succ width ih => rw [digits, List.length_append, ih, List.length_singleton]

theorem div_ten_lt (h : n < 10 ^ (width + 1)) : n / 10 < 10 ^ width :=
  Nat.div_lt_of_lt_mul (Nat.pow_succ' ▸ h)

/-- The digits of a number are those of its upper part, followed by those of the lower. -/
theorem digits_add (width more n : Nat) :
    digits (width + more) n = digits width (n / 10 ^ more) ++ digits more n := by
  induction more generalizing n with
  | zero => simp [digits]
  | succ more ih =>
    have hdiv : n / 10 / 10 ^ more = n / 10 ^ (more + 1) := by
      rw [Nat.div_div_eq_div_mul, ← Nat.pow_succ']
    rw [← Nat.add_assoc, digits, ih, hdiv, digits, List.append_assoc]

theorem digits_zero (width : Nat) : digits width 0 = List.replicate width '0' := by
  induction width with
  | zero => rfl
  | succ width ih =>
    rw [digits, Nat.zero_div, ih, List.replicate_succ']
    rfl

theorem digits_mod (width n : Nat) : digits width (n % 10 ^ width) = digits width n := by
  induction width generalizing n with
  | zero => rfl
  | succ width ih =>
    have hlast : n % 10 ^ (width + 1) % 10 = n % 10 :=
      Nat.mod_mod_of_dvd n (Nat.pow_succ' ▸ Nat.dvd_mul_right ..)
    have hrest : n % 10 ^ (width + 1) / 10 = n / 10 % 10 ^ width := by
      rw [Nat.pow_succ', Nat.mod_mul_right_div_self]
    rw [digits, digits, hlast, hrest, ih]

/-- The zeros at the end of a number. -/
theorem digits_div_append_zeros (width : Nat) (h : n % 10 ^ more = 0) :
    digits width (n / 10 ^ more) ++ List.replicate more '0' = digits (width + more) n := by
  rw [digits_add, ← digits_mod more n, h, digits_zero]

theorem zeros_toDigits (hwidth : 0 < width) (h : n < 10 ^ width) :
    List.replicate (width - (Nat.toDigits 10 n).length) '0' ++ Nat.toDigits 10 n =
      digits width n := by
  induction width generalizing n with
  | zero => cases hwidth
  | succ width ih =>
    rw [digits]
    by_cases hsmall : n < 10
    · rw [Nat.toDigits_of_lt_base hsmall, Nat.div_eq_of_lt hsmall, digits_zero,
        Nat.mod_eq_of_lt hsmall]
      rfl
    · have hpos : 0 < width := by
        refine Nat.pos_of_ne_zero fun hzero => hsmall ?_
        rwa [hzero] at h
      rw [Nat.toDigits_of_base_le (by decide) (Nat.not_lt.mp hsmall), List.length_append,
        List.length_singleton, Nat.add_sub_add_right, ← List.append_assoc, ih hpos (div_ten_lt h)]

/-- A number that fits is padded with zeros, and no digit of it is cut off. -/
theorem toList_padded (hwidth : 0 < width) (h : n < 10 ^ width) :
    (padded width n).toList = digits width n := by
  have hdigits : (toString n).toList = Nat.toDigits 10 n := by simp
  have hlength : (toString n).length = (Nat.toDigits 10 n).length := by
    rw [← hdigits, String.length_toList]
  unfold padded
  rw [String.toList_append, String.toList_ofList, hdigits, hlength]
  exact zeros_toDigits hwidth h

/-! ## Texts in order -/

/-- Texts of the same length are in order whatever follows them. -/
theorem append_lt_append {l l' : List Char} (h : l < l') (hlen : l.length = l'.length)
    (r r' : List Char) : l ++ r < l' ++ r' := by
  induction l generalizing l' with
  | nil =>
    cases List.length_eq_zero_iff.mp hlen.symm
    exact absurd h (List.lt_irrefl _)
  | cons c l ih =>
    cases l' with
    | nil => cases hlen
    | cons d l' =>
      refine List.cons_lt_cons_iff.mpr ?_
      rcases List.cons_lt_cons_iff.mp h with hlt | ⟨heq, hlt⟩
      · exact .inl hlt
      · exact .inr ⟨heq, ih hlt (Nat.succ.inj hlen)⟩

theorem digitChar_lt (h : m < n) (hn : n < 10) : m.digitChar < n.digitChar := by
  rw [Char.lt_def, UInt32.lt_iff_toNat_lt]
  change m.digitChar.toNat < n.digitChar.toNat
  rw [Nat.toNat_digitChar_of_lt_ten hn, Nat.toNat_digitChar_of_lt_ten (Nat.lt_trans h hn)]
  exact Nat.add_lt_add_left h 48

/-- With the same width, digits are in the order of the numbers. -/
theorem digits_lt (h : m < n) (hn : n < 10 ^ width) : digits width m < digits width n := by
  induction width generalizing m n with
  | zero => omega
  | succ width ih =>
    rw [digits, digits]
    rcases Nat.lt_or_ge (m / 10) (n / 10) with hlt | hge
    · exact append_lt_append (ih hlt (div_ten_lt hn))
        ((length_digits ..).trans (length_digits ..).symm) _ _
    · have hsame : m / 10 = n / 10 := Nat.le_antisymm (Nat.div_le_div_right h.le) hge
      have hlast : m % 10 < n % 10 := by omega
      rw [hsame]
      exact List.append_left_lt
        (List.cons_lt_cons_iff.mpr (.inl (digitChar_lt hlast (Nat.mod_lt _ (by decide)))))

theorem digits_append_lt (h : m < n) (hn : n < 10 ^ width) (r r' : List Char) :
    digits width m ++ r < digits width n ++ r' :=
  append_lt_append (digits_lt h hn) ((length_digits ..).trans (length_digits ..).symm) r r'

/-! ## Fractions -/

/-- Texts that are in order with zeros at their ends are in order without them. -/
theorem lt_of_append_zeros {u v : List Char} (hu : ∀ c ∈ u, '0' ≤ c)
    (h : u ++ List.replicate k '0' < v ++ List.replicate l '0')
    (hlen : (u ++ List.replicate k '0').length = (v ++ List.replicate l '0').length) : u < v := by
  induction u generalizing v l with
  | nil =>
    cases v with
    | cons => exact List.nil_lt_cons ..
    | nil =>
      simp only [List.nil_append, List.length_replicate] at h hlen
      cases hlen
      exact absurd h (List.lt_irrefl _)
  | cons c u ih =>
    obtain ⟨hc, hu⟩ := List.forall_mem_cons.mp hu
    cases v with
    | nil =>
      obtain ⟨l, rfl⟩ : ∃ l', l = l' + 1 :=
        ⟨u.length + k, by simpa [Nat.succ_add] using hlen.symm⟩
      rcases List.cons_lt_cons_iff.mp h with hlt | ⟨-, hlt⟩
      · exact absurd hlt (not_lt_of_ge hc)
      · have hrest : (u ++ List.replicate k '0').length = (List.replicate l '0').length :=
          Nat.succ.inj hlen
        exact absurd (ih hu (v := []) hlt hrest) (List.not_lt_nil u)
    | cons d v =>
      refine List.cons_lt_cons_iff.mpr ((List.cons_lt_cons_iff.mp h).imp_right fun ⟨heq, hlt⟩ => ?_)
      exact ⟨heq, ih hu hlt (Nat.succ.inj hlen)⟩

theorem zero_le_of_mem_digits (h : c ∈ digits width n) : '0' ≤ c := by
  induction width generalizing n with
  | zero => cases h
  | succ width ih =>
    rcases List.mem_append.mp h with h | h
    · exact ih h
    · rw [List.mem_singleton.mp h]
      have hall : ∀ d : Fin 10, '0' ≤ d.val.digitChar := by decide
      exact hall ⟨n % 10, Nat.mod_lt _ (by decide)⟩

/-- The digits of a fraction, without some of the zeros at its end. -/
theorem fractionText_toList {t : Time} (hpos : 0 < t.nano) (h : t.nano < 10 ^ 9) :
    ∃ u k, t.fractionText.toList = '.' :: u ∧ u ++ List.replicate k '0' = digits 9 t.nano ∧
      ∀ c ∈ u, '0' ≤ c := by
  have hnano : t.nano % 1000000000 = t.nano := Nat.mod_eq_of_lt h
  have hdot (s : String) : ("." ++ s).toList = '.' :: s.toList := by
    rw [String.toList_append]
    rfl
  have hzeros (width n : Nat) : ∀ c ∈ digits width n, '0' ≤ c := fun _ => zero_le_of_mem_digits
  simp only [fractionText, hnano, if_neg hpos.ne']
  split
  · rename_i hmillis
    refine ⟨_, 6, ?_, digits_div_append_zeros 3 hmillis, hzeros _ _⟩
    rw [hdot, toList_padded (by decide) (by omega)]
    rfl
  · split
    · rename_i hmicros
      refine ⟨_, 3, ?_, digits_div_append_zeros 6 hmicros, hzeros _ _⟩
      rw [hdot, toList_padded (by decide) (by omega)]
      rfl
    · refine ⟨_, 0, ?_, List.append_nil _, hzeros _ _⟩
      rw [hdot, toList_padded (by decide) h]

/-- Fractions are in order although their zeros at the end are left out. -/
theorem fractionText_lt {a b : Time} (h : a.nano < b.nano) (hb : b.nano < 10 ^ 9) :
    a.fractionText.toList < b.fractionText.toList := by
  obtain ⟨v, l, hv, hvdigits, -⟩ := fractionText_toList (Nat.zero_lt_of_lt h) hb
  rcases Nat.eq_zero_or_pos a.nano with hzero | hpos
  · have hempty : a.fractionText = "" := by
      rw [fractionText, hzero]
      rfl
    rw [hempty, hv]
    exact List.nil_lt_cons ..
  · obtain ⟨u, k, hu, hudigits, hzeros⟩ := fractionText_toList hpos (Nat.lt_trans h hb)
    have hlt := digits_lt h hb
    have hlen : (digits 9 a.nano).length = (digits 9 b.nano).length := by
      rw [length_digits, length_digits]
    rw [← hudigits, ← hvdigits] at hlt hlen
    rw [hu, hv]
    exact List.cons_lt_cons_iff.mpr (.inr ⟨rfl, lt_of_append_zeros hzeros hlt hlen⟩)

/-! ## Dates -/

/-- The year of a day of a cycle, counted from the start of the cycle. -/
def yearOfCycle (day : Nat) : Nat := (day - day / 1460 + day / 36524 - day / 146096) / 365

theorem yearOfCycle_lt (h : day < 146097) : yearOfCycle day < 400 := by
  unfold yearOfCycle
  omega

theorem yearOfCycle_mono (h : day ≤ day') (hday : day' < 146097) :
    yearOfCycle day ≤ yearOfCycle day' := by
  have hle : day - day / 1460 + day / 36524 - day / 146096 ≤
      day' - day' / 1460 + day' / 36524 - day' / 146096 := by omega
  exact Nat.div_le_div_right hle

/-- The first day of a year of a cycle. -/
def startOfYear (year : Nat) : Nat := 365 * year + year / 4 - year / 100

/-- A day stands between the beginning of its year and that of the next. -/
theorem startOfYear_le (h : day < 146097) :
    startOfYear (yearOfCycle day) ≤ day ∧ day ≤ startOfYear (yearOfCycle day) + 365 := by
  generalize hyear : yearOfCycle day = year
  unfold yearOfCycle at hyear
  unfold startOfYear
  -- within a century only one kind of leap year matters
  have hcentury : day / 36524 = 0 ∨ day / 36524 = 1 ∨ day / 36524 = 2 ∨ day / 36524 = 3 ∨
      day / 36524 = 4 := by omega
  have hyears : year / 100 = 0 ∨ year / 100 = 1 ∨ year / 100 = 2 ∨ year / 100 = 3 := by omega
  rcases hcentury with hc | hc | hc | hc | hc <;> rcases hyears with hy | hy | hy | hy <;>
    rw [hc] at hyear <;> rw [hy] <;> omega

/-- The year of a day, where years start in March. -/
def marchYear (days : Int) : Int :=
  (days + 719468) / 146097 * 400 + yearOfCycle ((days + 719468) % 146097).toNat

/-- The day of such a year. -/
def marchDay (days : Int) : Nat :=
  let day := ((days + 719468) % 146097).toNat
  day - startOfYear (yearOfCycle day)

/-- The month in which a day of such a year is, and what day of the month it is. -/
def marchMonth (day : Nat) : Nat := (5 * day + 2) / 153

def dayOfMonth (day : Nat) : Nat := day - (153 * marchMonth day + 2) / 5 + 1

theorem marchDay_le (days : Int) : marchDay days ≤ 365 := by
  have hday : ((days + 719468) % 146097).toNat < 146097 := by omega
  have hstart := startOfYear_le hday
  unfold marchDay
  dsimp only
  omega

/-- Days in order are in years in order, and in the same year in order within it. -/
theorem march_lt {days days' : Int} (h : days < days') :
    marchYear days < marchYear days' ∨
      marchYear days = marchYear days' ∧ marchDay days < marchDay days' := by
  have hday : ((days + 719468) % 146097).toNat < 146097 := by omega
  have hday' : ((days' + 719468) % 146097).toNat < 146097 := by omega
  have hlt := yearOfCycle_lt hday
  have hcycles : (days + 719468) / 146097 ≤ (days' + 719468) / 146097 := by omega
  rcases hcycles.lt_or_eq with hcycle | hcycle
  · refine .inl ?_
    unfold marchYear
    omega
  · have hdays : ((days + 719468) % 146097).toNat < ((days' + 719468) % 146097).toNat := by omega
    have hstart := startOfYear_le hday
    have hmono := yearOfCycle_mono hdays.le hday'
    unfold marchYear marchDay
    dsimp only
    rw [hcycle]
    rcases hmono.lt_or_eq with hyear | hyear
    · omega
    · rw [← hyear]
      omega

theorem marchMonth_lt {day day' : Nat} (h : day < day') :
    marchMonth day < marchMonth day' ∨
      marchMonth day = marchMonth day' ∧ dayOfMonth day < dayOfMonth day' := by
  unfold dayOfMonth marchMonth
  omega

theorem marchMonth_le (h : day ≤ 365) : marchMonth day ≤ 11 := by
  unfold marchMonth
  omega

theorem dayOfMonth_le (day : Nat) : dayOfMonth day ≤ 31 := by
  unfold dayOfMonth marchMonth
  omega

/-- The last two months of such a year are in the next one. -/
theorem ofDays_eq (days : Int) : Date.ofDays days =
    let day := marchDay days
    if marchMonth day < 10 then ⟨marchYear days, marchMonth day + 3, dayOfMonth day⟩
    else ⟨marchYear days + 1, marchMonth day - 9, dayOfMonth day⟩ := by
  have hmonth := marchMonth_le (marchDay_le days)
  have heq : Date.ofDays days =
      let month := marchMonth (marchDay days)
      let month' := if month < 10 then month + 3 else month - 9
      ⟨if month' ≤ 2 then marchYear days + 1 else marchYear days, month',
        dayOfMonth (marchDay days)⟩ := rfl
  rw [heq]
  dsimp only
  split
  · rw [if_neg (by omega)]
  · rw [if_pos (by omega)]

/-- A date is before another. -/
def Date.Before (d d' : Date) : Prop :=
  d.year < d'.year ∨ d.year = d'.year ∧ (d.month < d'.month ∨ d.month = d'.month ∧ d.day < d'.day)

/-- Later days have later dates. -/
theorem ofDays_before {days days' : Int} (h : days < days') :
    (Date.ofDays days).Before (Date.ofDays days') := by
  have hmonth := marchMonth_le (marchDay_le days)
  have hmonth' := marchMonth_le (marchDay_le days')
  have hlt : marchYear days < marchYear days' ∨ marchYear days = marchYear days' ∧
      (marchMonth (marchDay days) < marchMonth (marchDay days') ∨
        marchMonth (marchDay days) = marchMonth (marchDay days') ∧
          dayOfMonth (marchDay days) < dayOfMonth (marchDay days')) :=
    (march_lt h).imp_right fun ⟨hyear, hday⟩ => ⟨hyear, marchMonth_lt hday⟩
  rw [ofDays_eq, ofDays_eq]
  unfold Date.Before
  dsimp only
  split <;> split <;> dsimp only <;> omega

theorem ofDays_range (days : Int) :
    (Date.ofDays days).month ≤ 12 ∧ (Date.ofDays days).day ≤ 31 := by
  have hmonth := marchMonth_le (marchDay_le days)
  rw [ofDays_eq]
  dsimp only
  split
  · exact ⟨by dsimp only; omega, dayOfMonth_le _⟩
  · exact ⟨by dsimp only; omega, dayOfMonth_le _⟩

/-! ## Texts of times -/

/-- The year has four digits, and the second is no leap second. -/
structure Plain (t : Time) : Prop where
  early : 0 ≤ (Date.ofDays (t.second / 86400)).year
  late : (Date.ofDays (t.second / 86400)).year ≤ 9999
  nano : t.nano < 10 ^ 9

/-- These are the times from the start of the year 0 to the end of the year 9999. -/
theorem plain_of_range {t : Time} (hearly : -62167219200 ≤ t.second)
    (hlate : t.second < 253402300800) (hnano : t.nano < 10 ^ 9) : t.Plain := by
  have hfirst : (Date.ofDays (-719528)).year = 0 := by decide
  have hlast : (Date.ofDays 2932896).year = 9999 := by decide
  have hmono {days days' : Int} (hle : days ≤ days') :
      (Date.ofDays days).year ≤ (Date.ofDays days').year := by
    rcases hle.lt_or_eq with hlt | rfl
    · have hbefore := ofDays_before hlt
      unfold Date.Before at hbefore
      omega
    · exact Int.le_refl _
  have hlow : -719528 ≤ t.second / 86400 := by omega
  have hhigh : t.second / 86400 ≤ 2932896 := by omega
  exact ⟨hfirst ▸ hmono hlow, hlast ▸ hmono hhigh, hnano⟩

/-- Three numbers with a mark between them. -/
def marked (width : Nat) (mark : Char) (a b c : Nat) : List Char :=
  digits width a ++ mark :: (digits 2 b ++ mark :: digits 2 c)

theorem length_marked (width : Nat) (mark : Char) (a b c : Nat) :
    (marked width mark a b c).length = width + 6 := by
  simp [marked, length_digits]

/-- Three numbers of fixed width are in order as the texts are in which they stand one after
another. -/
theorem marked_lt (h : a < a' ∨ a = a' ∧ (b < b' ∨ b = b' ∧ c < c')) (ha : a' < 10 ^ width)
    (hb : b' < 10 ^ 2) (hc : c' < 10 ^ 2) (mark : Char) :
    marked width mark a b c < marked width mark a' b' c' := by
  have hafter {n : Nat} {r r' : List Char} (hlt : r < r') (width : Nat) :
      digits width n ++ mark :: r < digits width n ++ mark :: r' :=
    List.append_left_lt (List.cons_lt_cons_iff.mpr (.inr ⟨rfl, hlt⟩))
  unfold marked
  rcases h with hlt | ⟨rfl, hlt | ⟨rfl, hlt⟩⟩
  · exact digits_append_lt hlt ha _ _
  · exact hafter (digits_append_lt hlt hb _ _) width
  · exact hafter (hafter (digits_lt hlt hc) 2) width

def dateDigits (d : Date) : List Char := marked 4 '-' d.year.toNat d.month d.day

def clockDigits (second : Nat) : List Char :=
  marked 2 ':' (second / 3600) (second / 60 % 60) (second % 60)

theorem Plain.columnText_toList {t : Time} (h : t.Plain) : t.columnText.toList =
    dateDigits (Date.ofDays (t.second / 86400)) ++
      ' ' :: (clockDigits (t.second % 86400).toNat ++ t.fractionText.toList) := by
  obtain ⟨hmonth, hday⟩ := ofDays_range (t.second / 86400)
  have hyear := h.late
  have hnano : t.nano / 1000000000 = 0 := Nat.div_eq_of_lt h.nano
  have hyearText : (yearText (Date.ofDays (t.second / 86400)).year).toList =
      digits 4 (Date.ofDays (t.second / 86400)).year.toNat := by
    rw [yearText, if_pos ⟨h.early, h.late⟩, toList_padded (by decide) (by omega)]
  have hdate : t.dateText.toList = dateDigits (Date.ofDays (t.second / 86400)) := by
    simp only [dateText, toString, String.toList_append, hyearText]
    rw [toList_padded (by decide) (by omega), toList_padded (by decide) (by omega)]
    simp [dateDigits, marked]
  have hclock : t.clockText.toList = clockDigits (t.second % 86400).toNat := by
    simp only [clockText, toString, String.toList_append, hnano]
    rw [toList_padded (by decide) (by omega), toList_padded (by decide) (by omega),
      toList_padded (by decide) (by omega)]
    simp [clockDigits, marked]
  simp only [columnText, toString, String.toList_append, hdate, hclock]
  simp

theorem dateDigits_lt {d d' : Date} (h : d.Before d') (hyear : 0 ≤ d.year) (hyear' : d'.year ≤ 9999)
    (hmonth : d'.month ≤ 12) (hday : d'.day ≤ 31) : dateDigits d < dateDigits d' := by
  unfold Date.Before at h
  exact marked_lt (by omega) (by omega) (by omega) (by omega) '-'

theorem clockDigits_lt {m n : Nat} (h : m < n) (hn : n < 86400) : clockDigits m < clockDigits n :=
  marked_lt (by omega) (by omega) (by omega) (by omega) ':'

/-- The texts of plain times are in the order of the times. -/
theorem columnText_lt {a b : Time} (ha : a.Plain) (hb : b.Plain) (h : b.le a = false) :
    a.columnText < b.columnText := by
  rw [String.lt_iff_toList_lt, ha.columnText_toList, hb.columnText_toList]
  have hlt : a.second < b.second ∨ a.second = b.second ∧ a.nano < b.nano := by
    have hle := Bool.eq_false_iff.mp h
    rw [ne_eq, le_iff] at hle
    omega
  have hafter {u r r' : List Char} (hlt : r < r') : u ++ ' ' :: r < u ++ ' ' :: r' :=
    List.append_left_lt (List.cons_lt_cons_iff.mpr (.inr ⟨rfl, hlt⟩))
  rcases hlt with hlt | ⟨hsame, hlt⟩
  · have hdays : a.second / 86400 ≤ b.second / 86400 := by omega
    rcases hdays.lt_or_eq with hday | hday
    · obtain ⟨hmonth, hday'⟩ := ofDays_range (b.second / 86400)
      exact append_lt_append
        (dateDigits_lt (ofDays_before hday) ha.early hb.late hmonth hday')
        ((length_marked ..).trans (length_marked ..).symm) _ _
    · rw [hday]
      have hclock := clockDigits_lt (m := (a.second % 86400).toNat)
        (n := (b.second % 86400).toNat) (by omega) (by omega)
      exact hafter (append_lt_append hclock
        ((length_marked ..).trans (length_marked ..).symm) _ _)
  · rw [hsame]
    exact hafter (List.append_left_lt (fractionText_lt hlt hb.nano))

/-- **The texts of times are in the order of the times.** -/
theorem columnText_le_iff {a b : Time} (ha : a.Plain) (hb : b.Plain) :
    a.columnText ≤ b.columnText ↔ a.le b := by
  constructor
  · intro hle
    cases hab : a.le b with
    | true => rfl
    | false => exact absurd hle (not_le_of_gt (columnText_lt hb ha hab))
  · intro hab
    cases hba : b.le a with
    | true => exact (le_antisymm hab hba ▸ le_refl _)
    | false => exact (columnText_lt ha hb hba).le

end RowFlow.Time
