import Kernloom.GoValue

/-! Times with the offset of their location, their RFC 3339 text, and the text read back. -/

namespace Kernloom

/-- A time, in nanoseconds, and the offset of its location at that time, in seconds. -/
structure ZonedTime where
  instant : Int := 0
  offset : Int := 0
  deriving DecidableEq

section Calendar

def isLeap (year : Nat) : Bool := year % 4 = 0 ∧ (year % 100 ≠ 0 ∨ year % 400 = 0)

/-- The days of a year before a month. -/
def monthStart (leap : Bool) (month : Nat) : Nat :=
  daysBefore.getD (month - 1) 0 + if leap ∧ 2 < month then 1 else 0

def daysIn (leap : Bool) (month : Nat) : Nat :=
  if month = 2 then (if leap then 29 else 28) else if month ∈ [4, 6, 9, 11] then 30 else 31

/-- The days from the first day of year 1 to a date. -/
def daysTo (year month day : Nat) : Nat :=
  365 * (year - 1) + (year - 1) / 4 - (year - 1) / 100 + (year - 1) / 400 + monthStart (isLeap year) month + day - 1

/-- The month and the day of a day of the year. -/
def monthDay (leap : Bool) (yday : Nat) : Nat × Nat :=
  let starts := daysBefore.zipIdx.map fun b => if leap ∧ 2 ≤ b.2 then b.1 + 1 else b.1
  let month := (starts.filter (· ≤ yday)).length
  (month, yday - starts.getD (month - 1) 0 + 1)

theorem monthDay_spec : ∀ leap : Bool, ∀ yday < 366, (yday < 365 ∨ leap = true) →
    1 ≤ (monthDay leap yday).1 ∧ (monthDay leap yday).1 ≤ 12 ∧ 1 ≤ (monthDay leap yday).2 ∧
      (monthDay leap yday).2 ≤ daysIn leap (monthDay leap yday).1 ∧
      monthStart leap (monthDay leap yday).1 + (monthDay leap yday).2 = yday + 1 := by
  decide +kernel

/-- The parts of a number of days: cycles of 400, 100 and 4 years, years, and the day of the year. -/
theorem civil_spec (days : Nat) : ∃ year yday, civil days = (year, monthDay (isLeap year) yday) ∧ 1 ≤ year ∧
    (yday < 365 ∨ (yday < 366 ∧ isLeap year = true)) ∧
    365 * (year - 1) + (year - 1) / 4 - (year - 1) / 100 + (year - 1) / 400 + yday = days := by
  obtain ⟨n400, d, hn400, hd, hdays⟩ : ∃ n d, n = days / 146097 ∧ d = days % 146097 ∧ days = 146097 * n + d :=
    ⟨_, _, rfl, rfl, by omega⟩
  obtain ⟨n100, d', hn100, hd', hd100⟩ : ∃ n d', n = min (d / 36524) 3 ∧ d' = d - n * 36524 ∧ d = 36524 * n + d' :=
    ⟨_, _, rfl, rfl, by omega⟩
  obtain ⟨n4, d'', hn4, hd'', hd4⟩ : ∃ n d'', n = d' / 1461 ∧ d'' = d' % 1461 ∧ d' = 1461 * n + d'' :=
    ⟨_, _, rfl, rfl, by omega⟩
  obtain ⟨n1, yday, hn1, hyday, hd1⟩ : ∃ n yday, n = min (d'' / 365) 3 ∧ yday = d'' - n * 365 ∧
      d'' = 365 * n + yday := ⟨_, _, rfl, rfl, by omega⟩
  have h100 : n100 ≤ 3 := by omega
  have h4 : n4 ≤ 24 := by omega
  have h1 : n1 ≤ 3 := by omega
  obtain ⟨year, hyear⟩ : ∃ year, year = 400 * n400 + 100 * n100 + 4 * n4 + n1 + 1 := ⟨_, rfl⟩
  have hyear1 : year - 1 = 400 * n400 + 100 * n100 + 4 * n4 + n1 := by omega
  have hyear4 : (year - 1) / 4 = 100 * n400 + 25 * n100 + n4 := by omega
  have hyear100 : (year - 1) / 100 = 4 * n400 + n100 := by omega
  have hyear400 : (year - 1) / 400 = n400 := by omega
  refine ⟨year, yday, ?_, ?_, ?_, ?_⟩
  · subst hyear hyday hn1 hd'' hn4 hd' hn100 hd hn400
    simp only [civil, monthDay, isLeap, decide_eq_true_eq]
  · omega
  · by_cases hlong : yday < 365
    · exact .inl hlong
    · have hn3 : n1 = 3 := by omega
      refine .inr ⟨by omega, ?_⟩
      unfold isLeap
      rw [decide_eq_true_eq]
      omega
  · rw [hyear4, hyear100, hyear400, hyear1]
    omega

end Calendar

section Digits

/-- A number of exactly `width` digits. -/
def readDigits : (width : Nat) → List Char → Option (Nat × List Char)
  | 0, cs => some (0, cs)
  | width + 1, cs =>
    match readDigits width cs with
    | some (n, c :: rest) => if c.isDigit then some (n * 10 + (c.toNat - 48), rest) else none
    | _ => none

theorem digitChar_digit : ∀ n < 10, (Nat.digitChar n).isDigit = true ∧ (Nat.digitChar n).toNat - 48 = n := by
  decide

theorem readDigits_digits (width n : Nat) (rest : List Char) :
    readDigits width (digits width n ++ rest) = some (n % 10 ^ width, rest) := by
  induction width generalizing n rest with
  | zero => simp [readDigits, digits, Nat.mod_one]
  | succ width ih =>
    obtain ⟨hdigit, hvalue⟩ := digitChar_digit (n % 10) (Nat.mod_lt n (by decide))
    have hmod : n % 10 ^ (width + 1) = n / 10 % 10 ^ width * 10 + n % 10 := by
      rw [Nat.pow_succ, Nat.mul_comm, Nat.mod_mul, Nat.mul_comm, Nat.add_comm]
    rw [digits, List.append_assoc, readDigits, ih]
    simp only [List.cons_append, List.nil_append, hdigit, hvalue, if_true, hmod]

theorem length_digits (width n : Nat) : (digits width n).length = width := by
  induction width generalizing n with
  | zero => rfl
  | succ width ih => rw [digits, List.length_append, ih, List.length_singleton]

theorem digits_isDigit (width n : Nat) : ∀ c ∈ digits width n, c.isDigit = true := by
  induction width generalizing n with
  | zero => simp [digits]
  | succ width ih =>
    intro c hc
    rcases List.mem_append.mp hc with hc | hc
    · exact ih _ c hc
    · rw [List.mem_singleton.mp hc]
      exact (digitChar_digit (n % 10) (Nat.mod_lt n (by decide))).1

def digitsNat (cs : List Char) : Nat := cs.foldl (fun n c => n * 10 + (c.toNat - 48)) 0

theorem readDigits_append {cs : List Char} (h : ∀ c ∈ cs, c.isDigit = true) (rest : List Char) :
    readDigits cs.length (cs ++ rest) = some (digitsNat cs, rest) := by
  induction cs using List.reverseRecOn generalizing rest with
  | nil => rfl
  | append_singleton cs c ih =>
    have hfirst := ih (fun d hd => h d (List.mem_append_left _ hd)) ([c] ++ rest)
    have hc := h c (List.mem_append_right _ (List.mem_singleton_self c))
    rw [List.length_append, List.length_singleton, List.append_assoc, readDigits, hfirst]
    simp only [List.singleton_append, hc, if_true, digitsNat, List.foldl_append, List.foldl_cons, List.foldl_nil]

theorem digitsNat_digits (width n : Nat) : digitsNat (digits width n) = n % 10 ^ width := by
  have hread := readDigits_append (digits_isDigit width n) []
  rw [length_digits, readDigits_digits] at hread
  exact (Prod.mk.inj (Option.some.inj hread)).1.symm

theorem digitsNat_zeros (cs : List Char) (k : Nat) :
    digitsNat (cs ++ List.replicate k '0') = digitsNat cs * 10 ^ k := by
  induction k with
  | zero => simp
  | succ k ih =>
    have hlast : digitsNat (cs ++ List.replicate k '0' ++ ['0']) = digitsNat (cs ++ List.replicate k '0') * 10 := by
      simp [digitsNat]
    rw [List.replicate_succ', ← List.append_assoc, hlast, ih, Nat.pow_succ, Nat.mul_assoc]

/-- The nanoseconds of a fraction: the digits after the ninth are cut off. -/
def readFraction : List Char → Nat × List Char
  | '.' :: c :: cs =>
    if c.isDigit then
      let run := ((c :: cs).takeWhile Char.isDigit).take 9
      (digitsNat run * 10 ^ (9 - run.length), (c :: cs).dropWhile Char.isDigit)
    else (0, '.' :: c :: cs)
  | cs => (0, cs)

theorem stripped_zeros (cs : List Char) : ∃ k, cs = (cs.reverse.dropWhile (· = '0')).reverse ++ List.replicate k '0' := by
  have hzeros : ∀ c ∈ cs.reverse.takeWhile (· = '0'), c = '0' := fun c hc => by
    simpa using List.mem_takeWhile_imp hc
  refine ⟨(cs.reverse.takeWhile (· = '0')).length, ?_⟩
  rw [← List.eq_replicate_of_mem hzeros]
  have hsplit := congrArg List.reverse (List.takeWhile_append_dropWhile (p := (· = '0')) (l := cs.reverse))
  rw [List.reverse_append, List.reverse_reverse] at hsplit
  rw [List.eq_replicate_of_mem hzeros, List.reverse_replicate, ← List.eq_replicate_of_mem hzeros] at hsplit
  exact hsplit.symm

theorem readFraction_fraction {nanos : Nat} (hlt : nanos < 10 ^ 9) {c : Char} (rest : List Char)
    (hc : c.isDigit = false) (hdot : c ≠ '.') :
    readFraction (fraction nanos ++ c :: rest) = (nanos, c :: rest) := by
  obtain ⟨k, hk⟩ := stripped_zeros (digits 9 nanos)
  unfold fraction
  generalize hcs : ((digits 9 nanos).reverse.dropWhile (· = '0')).reverse = cs at hk
  have hlength := congrArg List.length hk
  rw [length_digits, List.length_append, List.length_replicate] at hlength
  have hvalue : digitsNat cs * 10 ^ k = nanos := by
    rw [← digitsNat_zeros, ← hk, digitsNat_digits, Nat.mod_eq_of_lt hlt]
  have hdigits : ∀ d ∈ cs, d.isDigit = true := fun d hd =>
    digits_isDigit 9 nanos d (by rw [hk]; exact List.mem_append_left _ hd)
  cases cs with
  | nil =>
    have hzero : nanos = 0 := by rw [← hvalue]; simp [digitsNat]
    rw [hzero, List.nil_append]
    unfold readFraction
    split
    · next heq => exact absurd (List.cons.inj heq).1 hdot
    · rfl
  | cons d ds =>
    have htake : ((d :: ds) ++ c :: rest).takeWhile Char.isDigit = d :: ds := by
      rw [List.takeWhile_append_of_pos hdigits, List.takeWhile_cons_of_neg (by simp [hc]), List.append_nil]
    have hdrop : ((d :: ds) ++ c :: rest).dropWhile Char.isDigit = c :: rest := by
      rw [List.dropWhile_append_of_pos hdigits, List.dropWhile_cons_of_neg (by simp [hc])]
    have hd : d.isDigit = true := hdigits d List.mem_cons_self
    have hrun : (d :: ds).take 9 = d :: ds := List.take_of_length_le (by omega)
    have hexp : 9 - (d :: ds).length = k := by omega
    simp only [List.cons_append] at htake hdrop
    simp only [List.cons_append, readFraction, hd, if_true, htake, hdrop, hrun, hexp, hvalue]

end Digits

section Text

/-- The offset of a location: RFC 3339 has no seconds of it. -/
def writeOffset (offset : Int) : List Char :=
  if offset = 0 then ['Z']
  else (if offset ≤ -60 then '-' else '+') ::
    (digits 2 (offset.natAbs / 3600) ++ ':' :: digits 2 (offset.natAbs / 60 % 60))

/-- A date or a time of day: three numbers with a separator. -/
def writeThree (width : Nat) (separator : Char) (a b c : Nat) : List Char :=
  digits width a ++ separator :: (digits 2 b ++ separator :: digits 2 c)

/-- The clock at the location, in nanoseconds from the first day of the year -399: the calendar
repeats after 400 years, so that the year 0 is read off the year 400. -/
def localClock (t : ZonedTime) : Int :=
  t.instant + t.offset * 10 ^ 9 + 146097 * (86400 * 10 ^ 9)

/-- The text of a time as `MarshalJSON` has it; the years are 0 to 9999. -/
def writeTime (t : ZonedTime) : Option (List Char) :=
  let nanos := (localClock t).toNat
  let seconds := nanos / 10 ^ 9
  let date := civil (seconds / 86400)
  if localClock t < 0 ∨ date.1 < 400 ∨ 10399 < date.1 ∨ 86400 ≤ t.offset.natAbs then none
  else some (writeThree 4 '-' (date.1 - 400) date.2.1 date.2.2 ++
    'T' :: (writeThree 2 ':' (seconds / 3600 % 24) (seconds / 60 % 60) (seconds % 60) ++
      (fraction (nanos % 10 ^ 9) ++ writeOffset t.offset)))

def readChar (c : Char) : List Char → Option (List Char)
  | d :: rest => if d = c then some rest else none
  | [] => none

def readThree (width : Nat) (separator : Char) (cs : List Char) : Option ((Nat × Nat × Nat) × List Char) := do
  let (a, cs) ← readDigits width cs
  let cs ← readChar separator cs
  let (b, cs) ← readDigits 2 cs
  let cs ← readChar separator cs
  let (c, cs) ← readDigits 2 cs
  some ((a, b, c), cs)

def readSigned : List Char → Option Int
  | [] => none
  | sign :: cs => do
    let (hours, cs) ← readDigits 2 cs
    let cs ← readChar ':' cs
    let (minutes, cs) ← readDigits 2 cs
    if cs = [] ∧ hours < 24 ∧ minutes < 60 then
      if sign = '+' then some ((hours * 60 + minutes) * 60)
      else if sign = '-' then some (-((hours * 60 + minutes) * 60))
      else none
    else none

def readOffset (cs : List Char) : Option Int := if cs = ['Z'] then some 0 else readSigned cs

/-- The time of a date and a time of day at a location, if there is one. -/
def zonedTime (date clock : Nat × Nat × Nat) (nanos : Nat) (offset : Int) : Option ZonedTime :=
  if 1 ≤ date.2.1 ∧ date.2.1 ≤ 12 ∧ 1 ≤ date.2.2 ∧ date.2.2 ≤ daysIn (isLeap date.1) date.2.1 ∧
      clock.1 < 24 ∧ clock.2.1 < 60 ∧ clock.2.2 < 60 then
    let days : Int := daysTo (date.1 + 400) date.2.1 date.2.2 - 146097
    some ⟨(((days * 24 + clock.1) * 60 + clock.2.1) * 60 + clock.2.2 - offset) * 10 ^ 9 + nanos, offset⟩
  else none

/-- `UnmarshalJSON` of a time. -/
def readTime (cs : List Char) : Option ZonedTime := do
  let (date, cs) ← readThree 4 '-' cs
  let cs ← readChar 'T' cs
  let (clock, cs) ← readThree 2 ':' cs
  let (nanos, cs) := readFraction cs
  let offset ← readOffset cs
  zonedTime date clock nanos offset

theorem readThree_writeThree {width a b c : Nat} (separator : Char) (ha : a < 10 ^ width) (hb : b < 100) (hc : c < 100)
    (rest : List Char) :
    readThree width separator (writeThree width separator a b c ++ rest) = some ((a, b, c), rest) := by
  have hmodA : a % 10 ^ width = a := Nat.mod_eq_of_lt ha
  have hmodB : b % 10 ^ 2 = b := Nat.mod_eq_of_lt hb
  have hmodC : c % 10 ^ 2 = c := Nat.mod_eq_of_lt hc
  unfold readThree writeThree
  rw [List.append_assoc, readDigits_digits, hmodA]
  simp only [Option.bind_eq_bind, Option.bind_some, List.cons_append, readChar, if_true, List.append_assoc,
    readDigits_digits, hmodB, hmodC]

/-- The offset that is read back: without its seconds. -/
def minutesOf (offset : Int) : Int := if 0 ≤ offset then offset - offset % 60 else offset + -offset % 60

theorem readOffset_writeOffset {offset : Int} (h : offset.natAbs < 86400) :
    readOffset (writeOffset offset) = some (minutesOf offset) := by
  unfold writeOffset
  by_cases hzero : offset = 0
  · rw [if_pos hzero, hzero]
    rfl
  rw [if_neg hzero]
  have hhours := readDigits_digits 2 (offset.natAbs / 3600) (':' :: digits 2 (offset.natAbs / 60 % 60))
  have hminutes := readDigits_digits 2 (offset.natAbs / 60 % 60) []
  rw [List.append_nil] at hminutes
  have hhour : offset.natAbs / 3600 % 10 ^ 2 = offset.natAbs / 3600 := Nat.mod_eq_of_lt (by omega)
  have hminute : offset.natAbs / 60 % 60 % 10 ^ 2 = offset.natAbs / 60 % 60 := Nat.mod_eq_of_lt (by omega)
  have hrange : offset.natAbs / 3600 < 24 ∧ offset.natAbs / 60 % 60 < 60 := by omega
  rw [hhour] at hhours
  rw [hminute] at hminutes
  have hsigned : ∀ sign : Char, readSigned (sign :: (digits 2 (offset.natAbs / 3600) ++
      ':' :: digits 2 (offset.natAbs / 60 % 60))) = if sign = '+' then some ((offset.natAbs / 60 * 60 : Nat) : Int)
        else if sign = '-' then some (-(offset.natAbs / 60 * 60 : Nat)) else none := by
    intro sign
    have htotal : (((offset.natAbs / 3600 : Nat) : Int) * 60 + (offset.natAbs / 60 % 60 : Nat)) * 60 =
        (offset.natAbs / 60 * 60 : Nat) := by omega
    simp only [readSigned, hhours, readChar, if_true, hminutes, Option.bind_eq_bind, Option.bind_some, hrange,
      and_self, htotal]
  have hne : ∀ sign : Char, sign ≠ 'Z' → ∀ cs, sign :: cs ≠ ['Z'] := fun sign h cs heq => h (List.cons.inj heq).1
  unfold readOffset minutesOf
  by_cases hneg : offset ≤ -60
  · rw [if_pos hneg, if_neg (hne _ (by decide) _), hsigned, if_neg (by decide), if_pos rfl, if_neg (by omega)]
    congr 1
    omega
  · rw [if_neg hneg, if_neg (hne _ (by decide) _), hsigned, if_pos rfl]
    congr 1
    split_ifs <;> omega

theorem writeOffset_cons (offset : Int) : ∃ c cs, writeOffset offset = c :: cs ∧ c.isDigit = false ∧ c ≠ '.' := by
  unfold writeOffset
  split_ifs
  · exact ⟨_, _, rfl, by decide, by decide⟩
  · exact ⟨_, _, rfl, by decide, by decide⟩
  · exact ⟨_, _, rfl, by decide, by decide⟩

theorem isLeap_sub {year : Nat} (h : 400 ≤ year) : isLeap (year - 400) = isLeap year := by
  unfold isLeap
  rw [decide_eq_decide]
  omega

/-- The time that is read back: the same clock at the offset without its seconds. -/
def ZonedTime.read (t : ZonedTime) : ZonedTime where
  instant := t.instant + (t.offset - minutesOf t.offset) * 10 ^ 9
  offset := minutesOf t.offset

theorem zonedTime_localClock {t : ZonedTime} {seconds nanos year month day yday : Nat} (hyear400 : 400 ≤ year)
    (hclock : localClock t = (seconds * 10 ^ 9 + nanos : Nat))
    (hdate : 1 ≤ month ∧ month ≤ 12 ∧ 1 ≤ day ∧ day ≤ daysIn (isLeap year) month)
    (hstart : monthStart (isLeap year) month + day = yday + 1)
    (hdays : 365 * (year - 1) + (year - 1) / 4 - (year - 1) / 100 + (year - 1) / 400 + yday = seconds / 86400) :
    zonedTime (year - 400, month, day) (seconds / 3600 % 24, seconds / 60 % 60, seconds % 60) nanos
      (minutesOf t.offset) = some t.read := by
  have hdaysTo : daysTo (year - 400 + 400) month day = seconds / 86400 := by
    rw [Nat.sub_add_cancel hyear400]
    simp only [daysTo]
    omega
  have hvalid : 1 ≤ month ∧ month ≤ 12 ∧ 1 ≤ day ∧ day ≤ daysIn (isLeap (year - 400)) month ∧
      seconds / 3600 % 24 < 24 ∧ seconds / 60 % 60 < 60 ∧ seconds % 60 < 60 := by
    rw [isLeap_sub hyear400]
    omega
  unfold zonedTime ZonedTime.read
  dsimp only
  rw [if_pos hvalid, hdaysTo]
  obtain ⟨instant, offset⟩ := t
  simp only [localClock] at hclock
  congr 2
  dsimp only
  omega

theorem readTime_writeTime {t : ZonedTime} {cs : List Char} (h : writeTime t = some cs) :
    readTime cs = some t.read := by
  obtain ⟨nanos, hnanos⟩ : ∃ n, n = (localClock t).toNat := ⟨_, rfl⟩
  obtain ⟨seconds, hseconds⟩ : ∃ s, s = nanos / 10 ^ 9 := ⟨_, rfl⟩
  obtain ⟨year, yday, hcivil, -, hyday, hdays⟩ := civil_spec (seconds / 86400)
  have hspec := monthDay_spec (isLeap year) yday (by omega) (hyday.imp_right (·.2))
  rcases hpair : monthDay (isLeap year) yday with ⟨month, day⟩
  rw [hpair] at hcivil hspec
  obtain ⟨hmonth, hmonth', hday, hday', hstart⟩ := hspec
  dsimp only at hmonth hmonth' hday hday' hstart
  simp only [writeTime, ← hnanos, ← hseconds, hcivil] at h
  split_ifs at h with hrange
  obtain rfl := Option.some.inj h
  simp only [not_or, not_lt, not_le] at hrange
  obtain ⟨hnonneg, hyear400, hyear9999, hoffset⟩ := hrange
  have hday31 : day ≤ 31 := by
    refine hday'.trans ?_
    unfold daysIn
    split_ifs <;> omega
  have hdate := readThree_writeThree '-' (show year - 400 < 10 ^ 4 by omega) (show month < 100 by omega)
    (show day < 100 by omega)
  have hclock := readThree_writeThree ':' (show seconds / 3600 % 24 < 10 ^ 2 by omega)
    (show seconds / 60 % 60 < 100 by omega) (show seconds % 60 < 100 by omega)
  obtain ⟨c, rest, hcons, hc, hdot⟩ := writeOffset_cons t.offset
  have hfraction := readFraction_fraction (Nat.mod_lt nanos (show 0 < 10 ^ 9 by decide)) rest hc hdot
  rw [← hcons] at hfraction
  have htime : zonedTime (year - 400, month, day) (seconds / 3600 % 24, seconds / 60 % 60, seconds % 60)
      (nanos % 10 ^ 9) (minutesOf t.offset) = some t.read :=
    zonedTime_localClock hyear400 (by omega) ⟨hmonth, hmonth', hday, hday'⟩ hstart hdays
  unfold readTime
  simp only [hdate, hclock, hfraction, readChar, if_true, Option.bind_eq_bind, Option.bind_some,
    readOffset_writeOffset hoffset, htime]

theorem length_writeOffset {offset : Int} (h : offset ≠ 0) : (writeOffset offset).length = 6 := by
  unfold writeOffset
  rw [if_neg h]
  simp [length_digits]

/-- An offset of less than a minute is written as one, but read back as none. -/
def ZonedTime.Clean (t : ZonedTime) : Prop := t.offset.natAbs < 60 → t.offset = 0

theorem writeOffset_minutesOf {offset : Int} (h : offset.natAbs < 60 → offset = 0) :
    writeOffset (minutesOf offset) = writeOffset offset := by
  by_cases hzero : offset = 0
  · rw [hzero]
    rfl
  have hlong : 60 ≤ offset.natAbs := Nat.le_of_not_lt fun hlt => hzero (h hlt)
  obtain ⟨hne, hsign, hhour, hminute⟩ : minutesOf offset ≠ 0 ∧ (minutesOf offset ≤ -60 ↔ offset ≤ -60) ∧
      (minutesOf offset).natAbs / 3600 = offset.natAbs / 3600 ∧
      (minutesOf offset).natAbs / 60 % 60 = offset.natAbs / 60 % 60 := by
    unfold minutesOf
    split_ifs <;> omega
  simp only [writeOffset, hne, hzero, if_false, hsign, hhour, hminute]

theorem localClock_read (t : ZonedTime) : localClock t.read = localClock t := by
  simp only [localClock, ZonedTime.read]
  omega

theorem natAbs_minutesOf (offset : Int) : (minutesOf offset).natAbs ≤ offset.natAbs := by
  unfold minutesOf
  split_ifs <;> omega

/-- The text of what is read back: the same text, or a shorter one. -/
theorem writeTime_read {t : ZonedTime} {cs : List Char} (h : writeTime t = some cs) :
    ∃ cs', writeTime t.read = some cs' ∧ (t.Clean → cs' = cs) ∧ (¬ t.Clean → cs'.length < cs.length) := by
  unfold writeTime at h ⊢
  rw [localClock_read]
  dsimp only at h ⊢
  split_ifs at h with hrange
  simp only [not_or, not_lt, not_le] at hrange
  have hoffset : ¬ 86400 ≤ t.read.offset.natAbs :=
    Nat.not_le.mpr ((natAbs_minutesOf t.offset).trans_lt hrange.2.2.2)
  rw [if_neg (by simp only [not_or, not_lt, not_le]; exact ⟨hrange.1, hrange.2.1, hrange.2.2.1, Nat.lt_of_not_le hoffset⟩)]
  refine ⟨_, rfl, fun hclean => ?_, fun hclean => ?_⟩
  · obtain rfl := Option.some.inj h
    rw [show t.read.offset = minutesOf t.offset from rfl, writeOffset_minutesOf hclean]
  · obtain rfl := Option.some.inj h
    obtain ⟨hshort, hne⟩ := Classical.not_imp.mp hclean
    have hzero : t.read.offset = 0 := by
      show minutesOf t.offset = 0
      unfold minutesOf
      split_ifs <;> omega
    have hsix := length_writeOffset hne
    rw [hzero]
    simp only [List.length_append, List.length_cons, hsix]
    have hone : (writeOffset 0).length = 1 := rfl
    omega

theorem read_instant_eq_iff (t : ZonedTime) : t.read.instant = t.instant ↔ t.offset % 60 = 0 := by
  simp only [ZonedTime.read, minutesOf]
  split_ifs <;> omega

end Text

end Kernloom
