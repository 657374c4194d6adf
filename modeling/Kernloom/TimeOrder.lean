import Kernloom.TextOrder
import Kernloom.ZonedTime

/-! The order of the texts under which times are stored. It is the order of the times, except for a time
that is another one cut off to fewer decimals, and for years that are not written with four digits. -/

namespace Kernloom

open TextOrder

section Digits

variable {width m n : Nat}

theorem digitChar_lt : ∀ a < 10, ∀ b < 10, Nat.digitChar a < Nat.digitChar b ↔ a < b := by decide

theorem digits_inj (hm : m < 10 ^ width) (hn : n < 10 ^ width) : digits width m = digits width n ↔ m = n := by
  constructor
  · intro h
    have hvalue := congrArg digitsNat h
    rwa [digitsNat_digits, digitsNat_digits, Nat.mod_eq_of_lt hm, Nat.mod_eq_of_lt hn] at hvalue
  · rintro rfl
    rfl

theorem digits_lt_iff (hm : m < 10 ^ width) (hn : n < 10 ^ width) : digits width m < digits width n ↔
    m < n := by
  induction width generalizing m n with
  | zero =>
    have hzero : m = 0 ∧ n = 0 := by simpa using And.intro hm hn
    simp [digits, hzero.1, hzero.2]
  | succ width ih =>
    have hm' : m / 10 < 10 ^ width := by rw [Nat.pow_succ] at hm; omega
    have hn' : n / 10 < 10 ^ width := by rw [Nat.pow_succ] at hn; omega
    have hlast := digitChar_lt (m % 10) (by omega) (n % 10) (by omega)
    rw [digits, digits, append_lt_append_iff (by rw [length_digits, length_digits]), ih hm' hn',
      digits_inj hm' hn',
      List.cons_lt_cons_iff, hlast]
    simp only [List.not_lt_nil, and_false, or_false]
    omega

theorem field_lt_iff (hm : m < 10 ^ width) (hn : n < 10 ^ width) {s t : List Char} :
    digits width m ++ s < digits width n ++ t ↔ m < n ∨ m = n ∧ s < t := by
  rw [append_lt_append_iff (by rw [length_digits, length_digits]), digits_lt_iff hm hn, digits_inj hm hn]

theorem digits_add (width k n : Nat) : digits (width + k) n = digits width (n / 10 ^ k) ++ digits k n := by
  induction k generalizing n with
  | zero => simp [digits]
  | succ k ih =>
    rw [← Nat.add_assoc, digits, ih, digits, List.append_assoc, Nat.div_div_eq_div_mul, ← Nat.pow_succ']

theorem digits_mul_pow (k q : Nat) : digits k (q * 10 ^ k) = List.replicate k '0' := by
  induction k with
  | zero => rfl
  | succ k ih =>
    have hdiv : q * 10 ^ (k + 1) / 10 = q * 10 ^ k := by
      rw [Nat.pow_succ, ← Nat.mul_assoc, Nat.mul_div_cancel _ (by decide)]
    have hmod : q * 10 ^ (k + 1) % 10 = 0 := by
      rw [Nat.pow_succ, ← Nat.mul_assoc, Nat.mul_mod_left]
    rw [digits, hdiv, hmod, ih, List.replicate_succ']
    rfl

theorem isDigit_bounds {c : Char} (h : c.isDigit = true) : '0' ≤ c ∧ c < 'Z' := by
  obtain ⟨hlow, hhigh⟩ : 48 ≤ c.val ∧ c.val ≤ 57 := by simpa [Char.isDigit] using h
  exact ⟨hlow, UInt32.lt_of_le_of_lt hhigh (by decide)⟩

end Digits

section Fractions

variable {m n : Nat}

/-- The nine decimals of a fraction without trailing zeros. -/
def decimals (n : Nat) : List Char := ((digits 9 n).reverse.dropWhile (· = '0')).reverse

theorem fraction_eq (n : Nat) : fraction n = if decimals n = [] then [] else '.' :: decimals n := by
  unfold fraction decimals
  split
  next h => rw [if_pos h]
  next h => rw [if_neg h]

theorem decimals_padded (n : Nat) : digits 9 n = decimals n ++
    List.replicate (9 - (decimals n).length) '0' := by
  obtain ⟨k, hk⟩ := stripped_zeros (digits 9 n)
  have hlength := congrArg List.length hk
  rw [length_digits, List.length_append, List.length_replicate] at hlength
  have hk' : k = 9 - (decimals n).length := by
    unfold decimals
    omega
  rw [← hk']
  exact hk

theorem decimals_length (n : Nat) : (decimals n).length ≤ 9 := by
  have hlength := congrArg List.length (decimals_padded n)
  rw [length_digits, List.length_append] at hlength
  omega

theorem isDigit_decimals (n : Nat) : ∀ c ∈ decimals n, c.isDigit = true := fun c hc =>
  digits_isDigit 9 n c (by rw [decimals_padded n]; exact List.mem_append_left _ hc)

theorem digitsNat_decimals (hn : n < 10 ^ 9) : n = digitsNat (decimals n) * 10 ^
    (9 - (decimals n).length) := by
  rw [← digitsNat_zeros, ← decimals_padded, digitsNat_digits, Nat.mod_eq_of_lt hn]

theorem decimals_lt (hn : n < 10 ^ 9) (hlt : m < n) : decimals m < decimals n := by
  have hdigits := (digits_lt_iff (hlt.trans hn) hn).mpr hlt
  rw [decimals_padded m, decimals_padded n] at hdigits
  have hlm := decimals_length m
  have hln := decimals_length n
  exact lt_of_padded (fun c hc => (isDigit_bounds (isDigit_decimals m c hc)).1) (by omega) hdigits

theorem decimals_prefix_digits {k : Nat} (hk : k ≤ 9) (hcut : m = n / 10 ^ k * 10 ^ k) : decimals m <+:
    digits 9 n := by
  have hsplit : digits 9 m = digits (9 - k) (n / 10 ^ k) ++ List.replicate k '0' := by
    have hadd := digits_add (9 - k) k m
    rw [Nat.sub_add_cancel hk, hcut, Nat.mul_div_cancel _ (Nat.pow_pos (by decide)), digits_mul_pow] at hadd
    rw [hcut]
    exact hadd
  have hzeros : ∀ c ∈ List.replicate k '0', decide (c = '0') = true := fun c hc =>
    decide_eq_true (List.eq_of_mem_replicate hc)
  have hstrip : decimals m = ((digits (9 - k) (n / 10 ^ k)).reverse.dropWhile (· = '0')).reverse := by
    unfold decimals
    rw [hsplit, List.reverse_append, List.reverse_replicate, List.dropWhile_append_of_pos hzeros]
  obtain ⟨i, hi⟩ := stripped_zeros (digits (9 - k) (n / 10 ^ k))
  have hadd := digits_add (9 - k) k n
  rw [Nat.sub_add_cancel hk, hi, ← hstrip, List.append_assoc] at hadd
  exact ⟨_, hadd.symm⟩

theorem decimals_prefix {k : Nat} (hm : m < 10 ^ 9) (hn : n < 10 ^ 9) (hk : k ≤ 9)
    (hcut : m = n / 10 ^ k * 10 ^ k) :
    decimals m <+: decimals n := by
  have hpre := decimals_prefix_digits hk hcut
  rw [decimals_padded n] at hpre
  rcases List.prefix_or_prefix_of_prefix hpre (List.prefix_append _ _) with h | ⟨rest, hrest⟩
  · exact h
  · -- what is left of the decimals are zeros, so that the numbers are equal
    obtain ⟨more, hmore⟩ := hpre
    rw [← hrest, List.append_assoc, List.append_cancel_left_eq] at hmore
    have hzeros : rest = List.replicate rest.length '0' := List.eq_replicate_of_mem fun c hc =>
      List.eq_of_mem_replicate (hmore ▸ List.mem_append_left more hc)
    have hdigits : digitsNat (decimals m) = digitsNat (decimals n) * 10 ^ rest.length := by
      rw [← digitsNat_zeros, ← hzeros, hrest]
    have hlength : (decimals n).length + rest.length = (decimals m).length := by
      rw [← hrest, List.length_append]
    have hpad : rest.length + (9 - (decimals m).length) = 9 - (decimals n).length := by
      have hle := decimals_length m
      omega
    have hvalue : m = n := by
      rw [digitsNat_decimals hm, hdigits, Nat.mul_assoc, ← Nat.pow_add, hpad]
      exact (digitsNat_decimals hn).symm
    rw [hvalue]

/-- A fraction whose decimals begin those of another one is that one cut off. -/
theorem prefix_iff (hm : m < 10 ^ 9) (hn : n < 10 ^ 9) :
    decimals m <+: decimals n ↔ ∃ k ≤ 9, m = n / 10 ^ k * 10 ^ k := by
  constructor
  · rintro ⟨rest, hrest⟩
    obtain ⟨k, hk⟩ : ∃ k, (decimals m).length + k = 9 :=
      ⟨9 - (decimals m).length, by have := decimals_length m; omega⟩
    have hsplit := digits_add (decimals m).length k n
    rw [hk, decimals_padded n, ← hrest, List.append_assoc] at hsplit
    have hsame := congrArg digitsNat (List.append_inj_left hsplit (by rw [length_digits]))
    have hsmall : n / 10 ^ k < 10 ^ (decimals m).length := by
      refine Nat.div_lt_of_lt_mul ?_
      rw [← Nat.pow_add, Nat.add_comm, hk]
      exact hn
    rw [digitsNat_digits, Nat.mod_eq_of_lt hsmall] at hsame
    have hexp : 9 - (decimals m).length = k := by omega
    have hvalue : m = digitsNat (decimals m) * 10 ^ (9 - (decimals m).length) := digitsNat_decimals hm
    rw [hsame, hexp] at hvalue
    exact ⟨k, by omega, hvalue⟩
  · rintro ⟨k, hk, hcut⟩
    exact decimals_prefix hm hn hk hcut

/-- Two fractions are in the order of their texts unless the first is the second one cut off. -/
theorem fraction_lt_iff (hn : n < 10 ^ 9) (hlt : m < n) :
    (fraction m ++ ['Z'] < fraction n ++ ['Z'] ↔ ¬ ∃ k ≤ 9, m = n / 10 ^ k * 10 ^ k) ∧
      (fraction n ++ ['Z'] < fraction m ++ ['Z'] ↔ ∃ k ≤ 9, m = n / 10 ^ k * 10 ^ k) := by
  rw [← prefix_iff (hlt.trans hn) hn]
  have hdecimals := decimals_lt hn hlt
  have hbound : ∀ c ∈ decimals n, c < 'Z' := fun c hc => (isDigit_bounds (isDigit_decimals n c hc)).2
  have horder : (¬ decimals m <+: decimals n → fraction m ++ ['Z'] < fraction n ++ ['Z']) ∧
      (decimals m <+: decimals n → fraction n ++ ['Z'] < fraction m ++ ['Z']) := by
    have hne : decimals n ≠ [] := fun hnil => List.not_lt_nil _ (hnil ▸ hdecimals)
    rw [fraction_eq, fraction_eq, if_neg hne]
    by_cases hnil : decimals m = []
    · rw [if_pos hnil, hnil]
      exact ⟨fun hpre => absurd List.nil_prefix hpre, fun _ => List.cons_lt_cons_iff.mpr (.inl (by decide))⟩
    · rw [if_neg hnil, List.cons_append, List.cons_append, List.cons_lt_cons_iff, List.cons_lt_cons_iff]
      exact ⟨fun hpre => .inr ⟨rfl, terminated_lt_of_not_prefix hpre hdecimals⟩,
        fun hpre => .inr ⟨rfl, terminated_lt_of_prefix hbound hpre hdecimals.ne⟩⟩
  by_cases hpre : decimals m <+: decimals n
  · exact ⟨iff_of_false (lt_asymm (horder.2 hpre)) (not_not.mpr hpre), iff_of_true (horder.2 hpre) hpre⟩
  · exact ⟨iff_of_true (horder.1 hpre) hpre, iff_of_false (lt_asymm (horder.1 hpre)) hpre⟩

end Fractions

section Dates

/-- The days from the first day of year 1 to the first day of a year. -/
def yearStart (year : Int) : Int := 365 * (year - 1) + (year - 1) / 4 - (year - 1) / 100 + (year - 1) / 400

def isLeapYear (year : Int) : Bool := year % 4 = 0 ∧ (year % 100 ≠ 0 ∨ year % 400 = 0)

theorem date_spec (days : Int) : ∃ (year : Int) (yday : Nat),
    date days = (year, monthDay (isLeapYear year) yday) ∧
    (yday < 365 ∨ (yday < 366 ∧ isLeapYear year = true)) ∧ yearStart year + yday = days := by
  obtain ⟨year, yday, hcivil, hyear, hyday, hdays⟩ := civil_spec (days % 146097).toNat
  have hleap : isLeapYear (400 * (days / 146097) + year) = isLeap year := by
    unfold isLeapYear isLeap
    rw [decide_eq_decide]
    omega
  refine ⟨400 * (days / 146097) + year, yday, ?_, ?_, ?_⟩
  · unfold date
    rw [hcivil, hleap]
  · rw [hleap]
    exact hyday
  · have h4 : (400 * (days / 146097) + year - 1) / 4 = 100 * (days / 146097) +
        ((year - 1) / 4 : Nat) := by omega
    have h100 : (400 * (days / 146097) + year - 1) / 100 = 4 * (days / 146097) +
        ((year - 1) / 100 : Nat) := by omega
    have h400 : (400 * (days / 146097) + year - 1) / 400 = days / 146097 +
        ((year - 1) / 400 : Nat) := by omega
    unfold yearStart
    rw [h4, h100, h400]
    omega

theorem yearStart_lt {year year' : Int} {yday yday' : Nat}
    (hyday : yday < 365 ∨ (yday < 366 ∧ isLeapYear year = true))
    (hlt : year < year') : yearStart year + yday < yearStart year' + yday' := by
  have hleap : isLeapYear year = true → year % 4 = 0 ∧ (year % 100 ≠ 0 ∨ year % 400 = 0) := by
    unfold isLeapYear
    exact of_decide_eq_true
  unfold yearStart
  rcases hyday with hyday | ⟨hyday, hyear⟩
  · omega
  · obtain ⟨h4, h100⟩ := hleap hyear
    omega

/-- The days of a month come before those of a later one. -/
theorem monthStart_add_daysIn : ∀ leap : Bool, ∀ month ≤ 12, ∀ month' < month, 1 ≤ month' →
    monthStart leap month' + daysIn leap month' ≤ monthStart leap month := by
  decide

theorem monthDay_mono (leap : Bool) {yday yday' : Nat} (hlt : yday < yday')
    (hyday : yday' < 365 ∨ (yday' < 366 ∧ leap = true)) :
    (monthDay leap yday).1 < (monthDay leap yday').1 ∨ ((monthDay leap yday).1 = (monthDay leap yday').1 ∧
      (monthDay leap yday).2 < (monthDay leap yday').2) := by
  obtain ⟨-, hmonth, hday, -, hspec⟩ := monthDay_spec leap yday (by omega) (.inl (by omega))
  obtain ⟨hmonth', -, -, hday', hspec'⟩ := monthDay_spec leap yday' (by omega) (hyday.imp id And.right)
  rcases lt_trichotomy (monthDay leap yday).1 (monthDay leap yday').1 with hlt | heq | hgt
  · exact .inl hlt
  · rw [heq] at hspec
    exact .inr ⟨heq, by omega⟩
  · have hdays := monthStart_add_daysIn leap _ hmonth _ hgt hmonth'
    omega

theorem monthDay_bounds (leap : Bool) {yday : Nat} (hyday : yday < 365 ∨ (yday < 366 ∧ leap = true)) :
    (monthDay leap yday).1 < 100 ∧ (monthDay leap yday).2 < 100 := by
  have hdays : ∀ leap : Bool, ∀ month ≤ 12, daysIn leap month < 100 := by decide
  obtain ⟨-, hmonth, -, hday, -⟩ := monthDay_spec leap yday (by omega) (hyday.imp id And.right)
  have hlast := hdays leap _ hmonth
  omega

/-- The day of the year and the second of the day. -/
def calendarText (month day clock : Nat) : List Char :=
  digits 2 month ++ '-' :: (digits 2 day ++ 'T' :: (digits 2 (clock / 3600) ++ ':' ::
    (digits 2 (clock / 60 % 60) ++ ':' :: digits 2 (clock % 60))))

theorem calendarText_lt {month day clock month' day' clock' : Nat} {s t : List Char}
    (hbounds : month < 100 ∧ day < 100 ∧ clock < 86400)
    (hbounds' : month' < 100 ∧ day' < 100 ∧ clock' < 86400)
    (h : month < month' ∨ (month = month' ∧ (day < day' ∨ (day = day' ∧ clock < clock')))) :
    calendarText month day clock ++ s < calendarText month' day' clock' ++ t := by
  obtain ⟨hm, hd, hc⟩ := hbounds
  obtain ⟨hm', hd', hc'⟩ := hbounds'
  have hfield {a b : Nat} (ha : a < 100) (hb : b < 100) {s t : List Char} :
      digits 2 a ++ s < digits 2 b ++ t ↔ a < b ∨ a = b ∧ s < t := field_lt_iff ha hb
  have hletter {c : Char} {s t : List Char} : c :: s < c :: t ↔ s < t := by simp
  unfold calendarText
  simp only [List.append_assoc, List.cons_append]
  rw [hfield hm hm', hletter, hfield hd hd', hletter, hfield (by omega) (by omega), hletter,
    hfield (by omega) (by omega), hletter, hfield (by omega) (by omega)]
  omega

end Dates

section Years

theorem digits_year (year : Int) : year.natAbs < 10 ^ max 4 (Nat.toDigits 10 year.natAbs).length := by
  have hlength : year.natAbs < 10 ^ (Nat.toDigits 10 year.natAbs).length :=
    (Nat.length_toDigits_le_iff (by decide) Nat.length_toDigits_pos).mp le_rfl
  exact hlength.trans_le (Nat.pow_le_pow_right (by decide) (le_max_right _ _))

theorem yearDigits_inj {year year' : Int} (h : yearDigits year = yearDigits year') : year = year' := by
  have hsign : ∀ y y' : Int, 0 ≤ y → y' < 0 → yearDigits y ≠ yearDigits y' := by
    intro y y' hy hy' heq
    unfold yearDigits at heq
    dsimp only at heq
    rw [if_neg (not_lt.mpr hy), if_pos hy'] at heq
    have hminus : '-'.isDigit = true := digits_isDigit _ _ _ (heq ▸ List.mem_cons_self)
    exact absurd hminus (by decide)
  have hvalue {width width' m n : Nat} (hm : m < 10 ^ width) (hn : n < 10 ^ width')
      (heq : digits width m = digits width' n) : m = n := by
    have hdigits := congrArg digitsNat heq
    rwa [digitsNat_digits, digitsNat_digits, Nat.mod_eq_of_lt hm, Nat.mod_eq_of_lt hn] at hdigits
  by_cases hyear : year < 0 <;> by_cases hyear' : year' < 0
  · unfold yearDigits at h
    dsimp only at h
    rw [if_pos hyear, if_pos hyear'] at h
    have habs := hvalue (digits_year year) (digits_year year') (List.cons.inj h).2
    omega
  · exact absurd h.symm (hsign _ _ (not_lt.mp hyear') hyear)
  · exact absurd h (hsign _ _ (not_lt.mp hyear) hyear')
  · unfold yearDigits at h
    dsimp only at h
    rw [if_neg hyear, if_neg hyear'] at h
    have habs := hvalue (digits_year year) (digits_year year') h
    omega

theorem yearDigits_cons (year : Int) : ∃ c cs, yearDigits year = c :: cs ∧ ∀ d ∈ cs, d.isDigit = true := by
  have hdigits := digits_isDigit (max 4 (Nat.toDigits 10 year.natAbs).length) year.natAbs
  unfold yearDigits
  dsimp only
  by_cases hyear : year < 0
  · rw [if_pos hyear]
    exact ⟨_, _, rfl, hdigits⟩
  · rw [if_neg hyear]
    cases hcs : digits (max 4 (Nat.toDigits 10 year.natAbs).length) year.natAbs with
    | nil =>
      have hlength := congrArg List.length hcs
      rw [length_digits] at hlength
      exact absurd hlength (by simp)
    | cons c cs =>
      rw [hcs] at hdigits
      exact ⟨c, cs, rfl, fun d hd => hdigits d (List.mem_cons_of_mem c hd)⟩

theorem yearDigits_field {year year' : Int} {s t : List Char} (h : yearDigits year < yearDigits year') :
    yearDigits year ++ '-' :: s < yearDigits year' ++ '-' :: t := by
  rcases prefix_or_lt_append h with ⟨_ | ⟨c, rest⟩, hrest⟩ | hlt
  · rw [← hrest, List.append_nil] at h
    exact absurd h (lt_irrefl _)
  · obtain ⟨a, as, has, -⟩ := yearDigits_cons year
    obtain ⟨b, bs, hbs, hdigits⟩ := yearDigits_cons year'
    rw [has, hbs, List.cons_append] at hrest
    have hc : c.isDigit = true :=
        hdigits c ((List.cons.inj hrest).2 ▸ List.mem_append_right as List.mem_cons_self)
    have hminus : '-' < c := lt_of_lt_of_le (by decide) (isDigit_bounds hc).1
    rw [hbs, ← hrest, ← List.cons_append, ← has, List.append_assoc, List.cons_append]
    exact append_cons_lt hminus
  · exact hlt _ _

theorem yearDigits_four {year : Int} (hyear : 0 ≤ year) (hyear' : year < 10000) :
    yearDigits year = digits 4 year.natAbs := by
  have hlength : (Nat.toDigits 10 year.natAbs).length ≤ 4 :=
    (Nat.length_toDigits_le_iff (by decide) (by decide)).mpr (by omega)
  unfold yearDigits
  dsimp only
  rw [if_neg (not_lt.mpr hyear), max_eq_left hlength]

theorem yearDigits_lt {year year' : Int} (hyear : 0 ≤ year) (hlt : year < year') (hyear' : year' < 10000) :
    yearDigits year < yearDigits year' := by
  have hbound : year.natAbs < 10 ^ 4 := by omega
  have hbound' : year'.natAbs < 10 ^ 4 := by omega
  rw [yearDigits_four hyear (hlt.trans hyear'), yearDigits_four (hyear.trans hlt.le) hyear',
    digits_lt_iff hbound hbound']
  omega

end Years

section Order

variable {a b : Int}

def yearOf (t : Int) : Int := (date (t / 10 ^ 9 / 86400)).1

/-- The first time is the second one cut off to fewer decimals of a second. -/
def CutOff (a b : Int) : Prop := ∃ k : Nat, k ≤ 9 ∧ a = b / 10 ^ k * 10 ^ k

/-- The years are those of one text order, and no decimals are cut off. -/
structure SortsBefore (a b : Int) : Prop where
  years : yearOf a = yearOf b ∨ yearDigits (yearOf a) < yearDigits (yearOf b)
  decimals : ¬ CutOff a b

theorem rfc3339Nano_toList (t : Int) : ∃ (year : Int) (yday : Nat), yearOf t = year ∧
    (yday < 365 ∨ (yday < 366 ∧ isLeapYear year = true)) ∧ yearStart year + yday = t / 10 ^ 9 / 86400 ∧
    (rfc3339Nano t).toList = yearDigits year ++ '-' :: (calendarText (monthDay (isLeapYear year) yday).1
      (monthDay (isLeapYear year) yday).2 (t / 10 ^ 9 % 86400).toNat ++
      (fraction (t % 10 ^ 9).toNat ++ ['Z'])) := by
  obtain ⟨year, yday, hdate, hyday, hstart⟩ := date_spec (t / 10 ^ 9 / 86400)
  refine ⟨year, yday, ?_, hyday, hstart, ?_⟩
  · unfold yearOf
    rw [hdate]
  · unfold rfc3339Nano calendarText
    dsimp only
    rw [hdate, String.toList_ofList]
    simp only [List.append_assoc, List.cons_append]

theorem rfc3339Nano_ne_nil (t : Int) : (rfc3339Nano t).toList ≠ [] := by
  obtain ⟨year, yday, -, -, -, htext⟩ := rfc3339Nano_toList t
  rw [htext]
  simp

theorem yearOf_mono (h : a ≤ b) : yearOf a ≤ yearOf b := by
  obtain ⟨year, yday, hyear, hyday, hstart, -⟩ := rfc3339Nano_toList a
  obtain ⟨year', yday', hyear', hyday', hstart', -⟩ := rfc3339Nano_toList b
  have hseconds : a / 10 ^ 9 ≤ b / 10 ^ 9 := Int.ediv_le_ediv (by decide) h
  have hdays : a / 10 ^ 9 / 86400 ≤ b / 10 ^ 9 / 86400 := Int.ediv_le_ediv (by decide) hseconds
  rw [hyear, hyear']
  by_contra hnot
  have hafter : yearStart year' + yday' < yearStart year + yday := yearStart_lt hyday' (not_le.mp hnot)
  omega

/-- Between the years 0 and 9999 only times that are cut off are out of order. -/
theorem sortsBefore_iff (h : a < b) (hyear : 0 ≤ yearOf a) (hyear' : yearOf b < 10000) :
    SortsBefore a b ↔ ¬ CutOff a b := by
  refine ⟨SortsBefore.decimals, fun hcut => ⟨?_, hcut⟩⟩
  exact (yearOf_mono h.le).eq_or_lt.imp_right fun hlt => yearDigits_lt hyear hlt hyear'

/-- What is cut off is cut off the fraction of the second. -/
theorem cut_eq (b : Int) {k : Nat} (hk : k ≤ 9) :
    b / 10 ^ k * 10 ^ k = b / 10 ^ 9 * 10 ^ 9 + b % 10 ^ 9 / 10 ^ k * 10 ^ k := by
  have hunit : (10 : Int) ^ k ≠ 0 := pow_ne_zero k (by decide)
  have hsecond : (10 : Int) ^ 9 = 10 ^ (9 - k) * 10 ^ k := by rw [← pow_add, Nat.sub_add_cancel hk]
  have hdiv : b / 10 ^ k = b % 10 ^ 9 / 10 ^ k + b / 10 ^ 9 * 10 ^ (9 - k) := by
    rw [← Int.add_mul_ediv_right _ _ hunit, mul_assoc, ← hsecond, Int.emod_add_ediv_mul]
  rw [hdiv, add_mul, mul_assoc, ← hsecond, add_comm]

theorem cut_bounds (b : Int) (k : Nat) :
    0 ≤ b % 10 ^ 9 / 10 ^ k * 10 ^ k ∧ b % 10 ^ 9 / 10 ^ k * 10 ^ k < 10 ^ 9 := by
  have hfraction : 0 ≤ b % 10 ^ 9 := Int.emod_nonneg b (by decide)
  have hunit : (0 : Int) < 10 ^ k := pow_pos (by decide) k
  refine ⟨mul_nonneg (Int.ediv_nonneg hfraction hunit.le) hunit.le, ?_⟩
  exact (Int.ediv_mul_le _ hunit.ne').trans_lt (Int.emod_lt_of_pos b (by decide))

theorem CutOff.second (h : CutOff a b) : a / 10 ^ 9 = b / 10 ^ 9 := by
  obtain ⟨k, hk, rfl⟩ := h
  obtain ⟨hlow, hhigh⟩ := cut_bounds b k
  rw [cut_eq b hk, Int.mul_add_ediv_right _ _ (by decide), Int.ediv_eq_zero_of_lt hlow hhigh, add_zero]

theorem cutOff_iff (h : a / 10 ^ 9 = b / 10 ^ 9) :
    CutOff a b ↔ ∃ k ≤ 9, (a % 10 ^ 9).toNat = (b % 10 ^ 9).toNat / 10 ^ k * 10 ^ k := by
  unfold CutOff
  refine exists_congr fun k => and_congr_right fun hk => ?_
  have ha : ((a % 10 ^ 9).toNat : Int) = a % 10 ^ 9 := Int.toNat_of_nonneg (Int.emod_nonneg a (by decide))
  have hb : ((b % 10 ^ 9).toNat : Int) = b % 10 ^ 9 := Int.toNat_of_nonneg (Int.emod_nonneg b (by decide))
  rw [cut_eq b hk, ← Int.natCast_inj, Int.natCast_mul, Int.natCast_ediv, Int.natCast_pow, Nat.cast_ofNat, ha,
    hb]
  omega

/-- Of two times in order, the texts are in order or the other way round. -/
theorem rfc3339Nano_order (h : a < b) :
    (SortsBefore a b → (rfc3339Nano a).toList < (rfc3339Nano b).toList) ∧
      (¬ SortsBefore a b → (rfc3339Nano b).toList < (rfc3339Nano a).toList) := by
  obtain ⟨year, yday, hyear, hyday, hstart, htext⟩ := rfc3339Nano_toList a
  obtain ⟨year', yday', hyear', hyday', hstart', htext'⟩ := rfc3339Nano_toList b
  rw [htext, htext']
  have hseconds : a / 10 ^ 9 ≤ b / 10 ^ 9 := Int.ediv_le_ediv (by decide) h.le
  have hdays : a / 10 ^ 9 / 86400 ≤ b / 10 ^ 9 / 86400 := Int.ediv_le_ediv (by decide) hseconds
  by_cases hsame : year = year'
  · subst hsame
    by_cases hsecond : a / 10 ^ 9 = b / 10 ^ 9
    · -- one second: the fractions decide
      have hfraction : (a % 10 ^ 9).toNat < (b % 10 ^ 9).toNat := by omega
      have hbound : (b % 10 ^ 9).toNat < 10 ^ 9 := by omega
      obtain ⟨hlt, hgt⟩ := fraction_lt_iff hbound hfraction
      rw [← cutOff_iff hsecond] at hlt hgt
      have hyday : yday = yday' := by
        rw [← hsecond] at hstart'
        omega
      rw [hsecond, hyday, append_lt_append_left_iff, append_lt_append_left_iff, List.cons_lt_cons_iff,
        List.cons_lt_cons_iff, append_lt_append_left_iff, append_lt_append_left_iff]
      constructor
      · exact fun hsorts => .inr ⟨rfl, hlt.mpr hsorts.decimals⟩
      · exact fun hnot =>
          .inr ⟨rfl, hgt.mpr (by_contra fun hcut => hnot ⟨.inl (hyear.trans hyear'.symm), hcut⟩)⟩
    · have hsorts : SortsBefore a b := ⟨.inl (hyear.trans hyear'.symm), fun hcut => hsecond hcut.second⟩
      refine ⟨fun _ => ?_, fun hnot => absurd hsorts hnot⟩
      rw [append_lt_append_left_iff, List.cons_lt_cons_iff]
      obtain ⟨hmonth, hday⟩ := monthDay_bounds _ hyday
      obtain ⟨hmonth', hday'⟩ := monthDay_bounds _ hyday'
      have hclock : (a / 10 ^ 9 % 86400).toNat < 86400 := by omega
      have hclock' : (b / 10 ^ 9 % 86400).toNat < 86400 := by omega
      refine .inr ⟨rfl, calendarText_lt ⟨hmonth, hday, hclock⟩ ⟨hmonth', hday', hclock'⟩ ?_⟩
      by_cases hsameday : a / 10 ^ 9 / 86400 = b / 10 ^ 9 / 86400
      · have hyday : yday = yday' := by omega
        rw [hyday]
        exact .inr ⟨rfl, .inr ⟨rfl, by omega⟩⟩
      · have hlt : yday < yday' := by omega
        exact (monthDay_mono _ hlt hyday').imp_right fun hmonths => ⟨hmonths.1, .inl hmonths.2⟩
  · have hlt : year < year' := by
      rw [← hyear, ← hyear'] at hsame ⊢
      exact lt_of_le_of_ne (yearOf_mono h.le) hsame
    have hdifferent : yearOf a ≠ yearOf b := by
      rw [hyear, hyear']
      exact hsame
    have hcut : ¬ CutOff a b := by
      intro hcut
      have hsecond := hcut.second
      have hbefore : yearStart year + yday < yearStart year' + yday' := yearStart_lt hyday hlt
      omega
    constructor
    · intro hsorts
      have hyears := hsorts.years.resolve_left hdifferent
      rw [hyear, hyear'] at hyears
      exact yearDigits_field hyears
    · intro hnot
      rcases lt_trichotomy (yearDigits year) (yearDigits year') with hyears | hyears | hyears
      · rw [← hyear, ← hyear'] at hyears
        exact absurd ⟨.inr hyears, hcut⟩ hnot
      · exact absurd (yearDigits_inj hyears) hsame
      · exact yearDigits_field hyears

end Order

end Kernloom
