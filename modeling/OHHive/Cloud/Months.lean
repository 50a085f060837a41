import OHHive.Cloud.Archival

/-! The month that an instant is in, and the order of months. -/

namespace OHHive.Cloud

section Eras

/-- The year of a day in an era: 400 years that begin in March. -/
def yearOfEra (doe : Int) : Int := (doe - doe / 1460 + doe / 36524 - doe / 146096) / 365

/-- The days of an era before a year. -/
def daysOfYears (yoe : Int) : Int := 365 * yoe + yoe / 4 - yoe / 100

variable {doe later : Int}

theorem yearOfEra_bounds (lower : 0 ≤ doe) (upper : doe ≤ 146096) :
    0 ≤ yearOfEra doe ∧ yearOfEra doe ≤ 399 := by
  unfold yearOfEra
  omega

theorem yearOfEra_step (lower : 0 ≤ doe) (upper : doe < 146096) :
    yearOfEra doe ≤ yearOfEra (doe + 1) := by
  unfold yearOfEra
  omega

theorem yearOfEra_mono (lower : 0 ≤ doe) (ordered : doe ≤ later) (upper : later ≤ 146096) :
    yearOfEra doe ≤ yearOfEra later := by
  induction later, ordered using Int.leInduction with
  | base => exact le_refl _
  | succ later ordered ih =>
    have step := yearOfEra_step (le_trans lower ordered) (by omega : later < 146096)
    exact le_trans (ih (by omega)) step

theorem daysOfYears_mono {yoe next : Int} (ordered : yoe < next) :
    daysOfYears yoe + 365 ≤ daysOfYears next := by
  unfold daysOfYears
  omega

/-- A day is in its year. -/
theorem daysOfYears_le (lower : 0 ≤ doe) (upper : doe ≤ 146096) :
    daysOfYears (yearOfEra doe) ≤ doe := by
  unfold daysOfYears yearOfEra
  generalize counted : (doe - doe / 1460 + doe / 36524 - doe / 146096) / 365 = yoe
  have leap : yoe / 4 ≤ doe / 1460 := by omega
  have century : doe / 36524 ≤ yoe / 100 + 1 := by omega
  omega

theorem le_daysOfYears (lower : 0 ≤ doe) (upper : doe ≤ 146096) :
    doe ≤ daysOfYears (yearOfEra doe) + 366 := by
  unfold daysOfYears yearOfEra
  generalize counted : (doe - doe / 1460 + doe / 36524 - doe / 146096) / 365 = yoe
  have leap : doe / 1460 ≤ yoe / 4 + 1 := by omega
  have century : yoe / 100 ≤ doe / 36524 := by omega
  omega

/-- The day of a year on which the month of a day begins. -/
def monthOfYear (doy : Int) : Int := (153 * ((5 * doy + 2) / 153) + 2) / 5

theorem monthOfYear_bounds {doy : Int} (lower : 0 ≤ doy) :
    0 ≤ monthOfYear doy ∧ monthOfYear doy ≤ doy := by
  have month : 0 ≤ (5 * doy + 2) / 153 := Int.ediv_nonneg (by omega) (by decide)
  unfold monthOfYear
  omega

theorem monthOfYear_le {doy : Int} (upper : doy ≤ 366) : monthOfYear doy ≤ 337 := by
  unfold monthOfYear
  omega

theorem monthOfYear_mono {doy next : Int} (ordered : doy ≤ next) :
    monthOfYear doy ≤ monthOfYear next := by
  unfold monthOfYear
  omega

/-- The day of an era on which the month of a day begins. -/
def monthOfEra (doe : Int) : Int :=
  daysOfYears (yearOfEra doe) + monthOfYear (doe - daysOfYears (yearOfEra doe))

theorem monthOfEra_bounds (lower : 0 ≤ doe) (upper : doe ≤ 146096) :
    0 ≤ monthOfEra doe ∧ monthOfEra doe ≤ doe := by
  have started := daysOfYears_le lower upper
  have year := (yearOfEra_bounds lower upper).1
  have days : 0 ≤ daysOfYears (yearOfEra doe) := by
    unfold daysOfYears
    omega
  have month := monthOfYear_bounds (Int.sub_nonneg_of_le started)
  unfold monthOfEra
  omega

theorem monthOfEra_mono (lower : 0 ≤ doe) (ordered : doe ≤ later) (upper : later ≤ 146096) :
    monthOfEra doe ≤ monthOfEra later := by
  unfold monthOfEra
  rcases (yearOfEra_mono lower ordered upper).lt_or_eq with earlier | same
  · have years := daysOfYears_mono earlier
    have ended := le_daysOfYears lower (le_trans ordered upper)
    have started := daysOfYears_le (le_trans lower ordered) upper
    have last := monthOfYear_le (Int.sub_left_le_of_le_add ended)
    have first := (monthOfYear_bounds (Int.sub_nonneg_of_le started)).1
    omega
  · rw [same]
    exact Int.add_le_add_left (monthOfYear_mono (Int.sub_le_sub_right ordered _)) _

theorem daysOfEra_bounds (day : Int) : 0 ≤ day % 146097 ∧ day % 146097 ≤ 146096 := by
  omega

/-- The day on which the month of a day begins. -/
def monthOfDay (day : Int) : Int := day / 146097 * 146097 + monthOfEra (day % 146097)

theorem monthOfDay_mono {day next : Int} (ordered : day ≤ next) :
    monthOfDay day ≤ monthOfDay next := by
  have bounds := daysOfEra_bounds
  unfold monthOfDay
  by_cases era : day / 146097 = next / 146097
  · rw [era]
    refine Int.add_le_add_left (monthOfEra_mono (bounds day).1 ?_ (bounds next).2) _
    omega
  · have first := monthOfEra_bounds (bounds day).1 (bounds day).2
    have second := monthOfEra_bounds (bounds next).1 (bounds next).2
    omega

end Eras

section Months

theorem daysFromCivil_first {era yoe mp : Int} (yearLower : 0 ≤ yoe) (yearUpper : yoe ≤ 399)
    (monthLower : 0 ≤ mp) (monthUpper : mp ≤ 11) :
    daysFromCivil
        (yoe + era * 400 + if (if mp < 10 then mp + 3 else mp - 9) ≤ 2 then 1 else 0)
        (if mp < 10 then mp + 3 else mp - 9) 1 =
      era * 146097 + (daysOfYears yoe + (153 * mp + 2) / 5) - 719468 := by
  unfold daysFromCivil daysOfYears
  by_cases spring : mp < 10
  · simp only [if_pos spring]
    omega
  · simp only [if_neg spring]
    omega

theorem daysFromCivil_month (days : Int) :
    daysFromCivil (civilFromDays days).1 (civilFromDays days).2.1 1 =
      monthOfDay (days + 719468) - 719468 := by
  have day := daysOfEra_bounds (days + 719468)
  have year := yearOfEra_bounds day.1 day.2
  have started := daysOfYears_le day.1 day.2
  have ended := le_daysOfYears day.1 day.2
  have rest : days + 719468 - (days + 719468) / 146097 * 146097 = (days + 719468) % 146097 := by
    omega
  unfold civilFromDays monthOfDay monthOfEra monthOfYear
  dsimp only
  rw [rest]
  refine daysFromCivil_first year.1 year.2 (Int.ediv_nonneg ?_ (by decide)) ?_
  · unfold daysOfYears yearOfEra at started
    omega
  · unfold daysOfYears yearOfEra at ended
    omega

/-- `date_trunc('month', t)` in UTC. -/
def monthStart (t : Time) : Time :=
  let (year, month, _) := civilFromDays (t / microsPerDay)
  daysFromCivil year month 1 * microsPerDay

theorem monthStart_eq (t : Time) :
    monthStart t = (monthOfDay (t / microsPerDay + 719468) - 719468) * microsPerDay :=
  congrArg (· * microsPerDay) (daysFromCivil_month (t / microsPerDay))

/-- The first day of a month, by its era. -/
theorem monthStart_mono {first second : Time} (ordered : first ≤ second) :
    monthStart first ≤ monthStart second := by
  have days : first / microsPerDay ≤ second / microsPerDay :=
    Int.ediv_le_ediv (by decide) ordered
  rw [monthStart_eq, monthStart_eq]
  refine Int.mul_le_mul_of_nonneg_right ?_ (by decide)
  exact Int.sub_le_sub_right (monthOfDay_mono (Int.add_le_add_right days _)) _

end Months

end OHHive.Cloud
