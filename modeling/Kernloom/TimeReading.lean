import Kernloom.TimeOrder

/-! Which of the texts under which times are stored can be read back. -/

namespace Kernloom

/-- A year that is written with four digits. -/
def FourDigits (t : Int) : Prop := 0 ≤ yearOf t ∧ yearOf t < 10000

theorem readThree_year {year : Int} (h : ¬ (0 ≤ year ∧ year < 10000)) (rest : List Char) :
    readThree 4 '-' (yearDigits year ++ '-' :: rest) = none := by
  unfold yearDigits
  dsimp only
  by_cases hneg : year < 0
  · rw [if_pos hneg]
    have hread : readDigits 4 ('-' :: (digits (max 4 (Nat.toDigits 10 year.natAbs).length) year.natAbs ++
        '-' :: rest)) = none := rfl
    unfold readThree
    rw [List.cons_append, hread]
    rfl
  · rw [if_neg hneg]
    have hlong : 4 < (Nat.toDigits 10 year.natAbs).length := by
      rw [← not_le, Nat.length_toDigits_le_iff (by decide) (by decide)]
      omega
    obtain ⟨k, hk⟩ : ∃ k, max 4 (Nat.toDigits 10 year.natAbs).length = 4 + (k + 1) :=
      ⟨(Nat.toDigits 10 year.natAbs).length - 5, by omega⟩
    have hfifth : ∃ c cs, digits (k + 1) year.natAbs = c :: cs ∧ c ≠ '-' := by
      cases hcs : digits (k + 1) year.natAbs with
      | nil =>
        have hlength := congrArg List.length hcs
        rw [length_digits] at hlength
        cases hlength
      | cons c cs =>
        refine ⟨c, cs, rfl, ?_⟩
        rintro rfl
        have hdigit := digits_isDigit (k + 1) year.natAbs '-' (by rw [hcs]; exact List.mem_cons_self)
        exact absurd hdigit (by decide)
    obtain ⟨c, cs, hcs, hc⟩ := hfifth
    unfold readThree
    rw [hk, digits_add, List.append_assoc, readDigits_digits, hcs]
    simp only [Option.bind_eq_bind, Option.bind_some, List.cons_append, readChar, if_neg hc, Option.bind_none]

theorem isLeap_add {year : Nat} : isLeap (year + 400) = isLeapYear year := by
  unfold isLeap isLeapYear
  rw [decide_eq_decide]
  omega

theorem clock_parts {seconds clock : Nat} (h : seconds % 86400 = clock) :
    seconds / 3600 % 24 = clock / 3600 ∧ seconds / 60 % 60 = clock / 60 % 60 ∧ seconds % 60 = clock % 60 := by
  omega

/-- The text of a time in the years 0 to 9999 is read as that time. -/
theorem readTime_rfc3339Nano {t : Int} (h : FourDigits t) :
    readTime (rfc3339Nano t).toList = some ⟨t, 0⟩ := by
  obtain ⟨year, yday, hyear, hyday, hstart, htext⟩ := rfc3339Nano_toList t
  obtain ⟨hlow, hhigh⟩ := h
  rw [hyear] at hlow hhigh
  obtain ⟨n, rfl⟩ := Int.eq_ofNat_of_zero_le hlow
  have hspec := monthDay_spec (isLeapYear n) yday (by omega) (hyday.imp_right (·.2))
  rcases hpair : monthDay (isLeapYear n) yday with ⟨month, day⟩
  rw [hpair] at htext hspec
  obtain ⟨hmonth, hmonth', hday, hday', hsum⟩ := hspec
  dsimp only at hmonth hmonth' hday hday' hsum htext
  have hday31 : day ≤ 31 := by
    refine hday'.trans ?_
    unfold daysIn
    split_ifs <;> omega
  obtain ⟨clock, hclock⟩ : ∃ c, c = (t / 10 ^ 9 % 86400).toNat := ⟨_, rfl⟩
  obtain ⟨nanos, hnanos⟩ : ∃ f, f = (t % 10 ^ 9).toNat := ⟨_, rfl⟩
  rw [← hclock, ← hnanos, yearDigits_four hlow hhigh, Int.natAbs_natCast] at htext
  have hwritten : (rfc3339Nano t).toList = writeThree 4 '-' n month day ++
      'T' :: (writeThree 2 ':' (clock / 3600) (clock / 60 % 60) (clock % 60) ++
        (fraction nanos ++ ['Z'])) := by
    rw [htext]
    unfold calendarText writeThree
    simp only [List.append_assoc, List.cons_append]
  have hdate := readThree_writeThree '-' (show n < 10 ^ 4 by omega) (show month < 100 by omega)
      (show day < 100 by omega)
  have htime := readThree_writeThree ':' (show clock / 3600 < 10 ^ 2 by omega)
      (show clock / 60 % 60 < 100 by omega)
    (show clock % 60 < 100 by omega)
  have hfraction := readFraction_fraction (show nanos < 10 ^ 9 by omega) []
      (show 'Z'.isDigit = false by decide)
    (by decide)
  -- the calendar of the reader starts 400 years earlier
  obtain ⟨seconds, hseconds⟩ : ∃ s : Nat, (s : Int) = t / 10 ^ 9 + 146097 * 86400 := by
    refine ⟨(t / 10 ^ 9 + 146097 * 86400).toNat, Int.toNat_of_nonneg ?_⟩
    unfold yearStart at hstart
    omega
  have hlocal : localClock ⟨t, 0⟩ = (seconds * 10 ^ 9 + nanos : Nat) := by
    unfold localClock
    dsimp only
    omega
  have hdays : 365 * (n + 400 - 1) + (n + 400 - 1) / 4 - (n + 400 - 1) / 100 + (n + 400 - 1) / 400 + yday =
      seconds / 86400 := by
    have h4 : ((n : Int) - 1) / 4 + 100 = ((n + 400 - 1) / 4 : Nat) := by omega
    have h100 : ((n : Int) - 1) / 100 + 4 = ((n + 400 - 1) / 100 : Nat) := by omega
    have h400 : ((n : Int) - 1) / 400 + 1 = ((n + 400 - 1) / 400 : Nat) := by omega
    have hday : ((seconds / 86400 : Nat) : Int) = t / 10 ^ 9 / 86400 + 146097 := by omega
    unfold yearStart at hstart
    omega
  have hzoned : zonedTime (n, month, day) (clock / 3600, clock / 60 % 60, clock % 60) nanos 0 = some
      ⟨t, 0⟩ := by
    have hparts := clock_parts (show seconds % 86400 = clock by omega)
    have hread := zonedTime_localClock (t := ⟨t, 0⟩) (Nat.le_add_left 400 n) hlocal
      (by rw [isLeap_add]; exact ⟨hmonth, hmonth', hday, hday'⟩) (by rw [isLeap_add]; exact hsum) hdays
    have hminutes : minutesOf 0 = 0 := rfl
    have hsame : ZonedTime.read ⟨t, 0⟩ = ⟨t, 0⟩ := by
      simp [ZonedTime.read, hminutes]
    rw [hparts.1, hparts.2.1, hparts.2.2, Nat.add_sub_cancel, hsame] at hread
    exact hread
  have hoffset : readOffset ['Z'] = some 0 := rfl
  rw [hwritten]
  unfold readTime
  simp only [hdate, htime, hfraction, readChar, if_true, Option.bind_eq_bind, Option.bind_some, hoffset,
    hzoned]

theorem readTime_eq_none {t : Int} (h : ¬ FourDigits t) : readTime (rfc3339Nano t).toList = none := by
  obtain ⟨year, yday, hyear, -, -, htext⟩ := rfc3339Nano_toList t
  unfold FourDigits at h
  rw [hyear] at h
  unfold readTime
  rw [htext, readThree_year h]
  rfl

end Kernloom
