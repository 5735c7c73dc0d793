import Serveez.Lib.ByteText

/-!
# Days, hours, minutes and seconds

How long something has lasted is told by STATS of the IRC server, by the host list of the Gnutella
server and by the control server. Each computes its days, hours, minutes and seconds by divisions
in place, and STATS divides by the seconds where the others divide by 60.

* `uptimeParts_eq`, `hostsParts_eq_iff`: two of them give what a clock shows.
* `uptimeRight_iff`, `stats_total_iff`: STATS gives the same for a few durations only.
* `uptime_eq`: the text of the control server is not cut off.
-/

namespace Serveez.Uptime

open Lib

/-- What a clock with a counter of days shows. -/
structure Clock where
  day : Nat
  hour : Nat
  min : Nat
  sec : Nat
  hour_lt : hour < 24
  min_lt : min < 60
  sec_lt : sec < 60

namespace Clock

def total (clock : Clock) : Nat :=
  ((clock.day * 24 + clock.hour) * 60 + clock.min) * 60 + clock.sec

def shows (t : Nat) : Clock where
  day := t / 60 / 60 / 24
  hour := t / 60 / 60 % 24
  min := t / 60 % 60
  sec := t % 60
  hour_lt := Nat.mod_lt _ (by omega)
  min_lt := Nat.mod_lt _ (by omega)
  sec_lt := Nat.mod_lt _ (by omega)

theorem total_shows (t : Nat) : (shows t).total = t := by
  simp only [total, shows]
  omega

/-- There is no other way to show a duration. -/
theorem shows_total (clock : Clock) : shows clock.total = clock := by
  have hhour := clock.hour_lt
  have hmin := clock.min_lt
  have hsec := clock.sec_lt
  cases clock
  simp only [shows, total, mk.injEq]
  omega

end Clock

/-- The variables that a function has in the end. -/
structure Parts where
  day : Int
  hour : Int
  min : Int
  sec : Int

def Clock.parts (clock : Clock) : Parts := ⟨clock.day, clock.hour, clock.min, clock.sec⟩

theorem Clock.parts_total (clock : Clock) :
    clock.parts.hour < 24 ∧ clock.parts.min < 60 ∧ clock.parts.sec < 60 ∧
      ((clock.parts.day * 24 + clock.parts.hour) * 60 + clock.parts.min) * 60 +
        clock.parts.sec = clock.total := by
  have hhour := clock.hour_lt
  have hmin := clock.min_lt
  have hsec := clock.sec_lt
  simp only [Clock.parts, Clock.total]
  omega

/-! ## The functions -/

/-- `u` of `irc_stats_callback`, without a result if it divides by zero. All variables have the
type `time_t`. -/
def statsParts (t : Int) : Option Parts :=
  let sec := t.tmod 60
  if sec = 0 then none
  else
    let t := t.tdiv sec
    let min := t.tmod 60
    let t := t.tdiv 60
    let hour := t.tmod 24
    let t := t.tdiv 24
    let day := t.tmod 24
    some ⟨day, hour, min, sec⟩

/-- An assignment to an `int`. -/
def toInt (i : Int) : Int := i.bmod (2 ^ 32)

/-- `hosts_check_internal`, where all variables but `t` have the type `int`. -/
def hostsParts (t : Int) : Parts :=
  let day := toInt (t.tdiv (3600 * 24))
  let t := t.tmod (3600 * 24)
  let hour := toInt (t.tdiv 3600)
  let t := t.tmod 3600
  let min := toInt (t.tdiv 60)
  let t := t.tmod 60
  let sec := toInt t
  ⟨day, hour, min, sec⟩

/-- The variables of `uptime`, of the type `long`. -/
def uptimeParts (diff : Int) : Parts :=
  let sec := diff.tmod 60
  let diff := diff.tdiv 60
  let min := diff.tmod 60
  let diff := diff.tdiv 60
  let hour := diff.tmod 24
  let diff := diff.tdiv 24
  let day := diff
  ⟨day, hour, min, sec⟩

/-- `TEXTSIZE` -/
def textSize : Nat := 64

/-- `%02ld` -/
def twoDigits (i : Int) : List UInt8 :=
  if (signedBytes i).length < 2 then 48 :: signedBytes i else signedBytes i

/-- What `uptime` prints. -/
def uptimeText (diff : Int) : List UInt8 :=
  let parts := uptimeParts diff
  if diff < 60 then signedBytes parts.sec ++ asciiBytes " sec".toList
  else if diff < 60 * 60 then signedBytes parts.min ++ asciiBytes " min".toList
  else if diff < 60 * 60 * 24 then
    signedBytes parts.hour ++ asciiBytes " hours, ".toList ++ signedBytes parts.min ++
      asciiBytes " min".toList
  else
    signedBytes parts.day ++ asciiBytes " days, ".toList ++ signedBytes parts.hour ++
      asciiBytes ":".toList ++ twoDigits parts.min

/-- `uptime`, with the string that `snprintf` leaves in its buffer. -/
def uptime (diff : Int) : List UInt8 := (uptimeText diff).take (textSize - 1)

/-- The three functions have the same results, which are those of a clock. -/
def UptimeRight (t : Int) : Prop :=
  ∃ parts : Parts, statsParts t = some parts ∧ hostsParts t = parts ∧ uptimeParts t = parts ∧
    parts.hour < 24 ∧ parts.min < 60 ∧ parts.sec < 60 ∧
    ((parts.day * 24 + parts.hour) * 60 + parts.min) * 60 + parts.sec = t

/-! ## The host list and the control server -/

theorem tdiv_nat (m n : Nat) : (m : Int).tdiv n = (m / n : Nat) := by
  simp

theorem tmod_nat (m n : Nat) : (m : Int).tmod n = (m % n : Nat) := by
  rw [Int.tmod_eq_emod_of_nonneg (Int.natCast_nonneg m), Int.natCast_emod]

theorem uptimeParts_eq (t : Nat) : uptimeParts t = (Clock.shows t).parts := by
  have hsec := tmod_nat t 60
  have hmin := tdiv_nat t 60
  have hmin' := tmod_nat (t / 60) 60
  have hhour := tdiv_nat (t / 60) 60
  have hhour' := tmod_nat (t / 60 / 60) 24
  have hday := tdiv_nat (t / 60 / 60) 24
  simp only [Int.cast_ofNat_Int] at hsec hmin hmin' hhour hhour' hday
  simp only [uptimeParts, Clock.shows, Clock.parts, hsec, hmin, hmin', hhour, hhour', hday]

theorem toInt_eq_iff (n : Nat) : toInt n = n ↔ n < 2 ^ 31 := by
  unfold toInt
  rw [Int.bmod_def]
  omega

theorem hostsParts_nat (t : Nat) :
    hostsParts t = ⟨toInt (t / 86400 : Nat), toInt (t % 86400 / 3600 : Nat),
      toInt (t % 86400 % 3600 / 60 : Nat), toInt (t % 86400 % 3600 % 60 : Nat)⟩ := by
  have hday := tdiv_nat t 86400
  have hrest := tmod_nat t 86400
  have hhour := tdiv_nat (t % 86400) 3600
  have hrest' := tmod_nat (t % 86400) 3600
  have hmin := tdiv_nat (t % 86400 % 3600) 60
  have hsec := tmod_nat (t % 86400 % 3600) 60
  have hseconds : (3600 : Int) * 24 = 86400 := by omega
  simp only [Int.cast_ofNat_Int] at hday hrest hhour hrest' hmin hsec
  simp only [hostsParts, hseconds, hday, hrest, hhour, hrest', hmin, hsec]

/-- The remainders are small, but the days must be an `int`. -/
theorem hostsParts_eq_iff (t : Nat) :
    hostsParts t = (Clock.shows t).parts ↔ t / 86400 < 2 ^ 31 := by
  have hday : t / 60 / 60 / 24 = t / 86400 := by omega
  have hhour : t / 60 / 60 % 24 = t % 86400 / 3600 := by omega
  have hmin : t / 60 % 60 = t % 86400 % 3600 / 60 := by omega
  have hsec : t % 60 = t % 86400 % 3600 % 60 := by omega
  rw [hostsParts_nat, ← toInt_eq_iff, (toInt_eq_iff (t % 86400 / 3600)).mpr (by omega),
    (toInt_eq_iff (t % 86400 % 3600 / 60)).mpr (by omega),
    (toInt_eq_iff (t % 86400 % 3600 % 60)).mpr (by omega)]
  simp only [Clock.shows, Clock.parts, hday, hhour, hmin, hsec, Parts.mk.injEq, and_true]

/-! ## STATS -/

theorem statsParts_eq {t : Nat} (hsec : t % 60 ≠ 0) :
    statsParts t = some ⟨(t / (t % 60) / 60 / 24 % 24 : Nat), (t / (t % 60) / 60 % 24 : Nat),
      (t / (t % 60) % 60 : Nat), (t % 60 : Nat)⟩ := by
  have hmod := tmod_nat t 60
  have hdiv := tdiv_nat t (t % 60)
  have hmin := tmod_nat (t / (t % 60)) 60
  have hmin' := tdiv_nat (t / (t % 60)) 60
  have hhour := tmod_nat (t / (t % 60) / 60) 24
  have hhour' := tdiv_nat (t / (t % 60) / 60) 24
  have hday := tmod_nat (t / (t % 60) / 60 / 24) 24
  have hne : ((t % 60 : Nat) : Int) ≠ 0 := by omega
  simp only [Int.cast_ofNat_Int] at hmod hmin hmin' hhour hhour' hday
  simp only [statsParts, hmod, hne, if_false, hdiv, hmin, hmin', hhour, hhour', hday]

theorem statsParts_eq_none {t : Nat} (hsec : t % 60 = 0) : statsParts t = none := by
  have hmod := tmod_nat t 60
  simp only [Int.cast_ofNat_Int, hsec] at hmod
  simp only [statsParts, hmod, if_true]

/-- The quotient by the seconds is the minutes, as far as STATS looks at it: its days are less than
24. -/
def Coincides (t : Nat) : Prop := t % 60 ≠ 0 ∧ t / (t % 60) % 34560 = t / 60

instance (t : Nat) : Decidable (Coincides t) := inferInstanceAs (Decidable (_ ∧ _))

theorem statsParts_eq_iff (t : Nat) :
    statsParts t = some (Clock.shows t).parts ↔ Coincides t := by
  constructor
  · intro hstats
    by_cases hsec : t % 60 = 0
    · rw [statsParts_eq_none hsec] at hstats
      cases hstats
    · refine ⟨hsec, ?_⟩
      have hparts := Option.some.inj ((statsParts_eq hsec).symm.trans hstats)
      simp only [Clock.parts, Clock.shows, Parts.mk.injEq, Int.natCast_inj] at hparts
      obtain ⟨hday, hhour, hmin, -⟩ := hparts
      generalize t / (t % 60) = minutes at hday hhour hmin
      omega
  · rintro ⟨hsec, hminutes⟩
    have hlt : t / (t % 60) % 34560 < 34560 := Nat.mod_lt _ (by omega)
    rw [statsParts_eq hsec]
    generalize t / (t % 60) = minutes at hminutes hlt
    have hday : minutes / 60 / 24 % 24 = t / 60 / 60 / 24 := by omega
    have hhour : minutes / 60 % 24 = t / 60 / 60 % 24 := by omega
    have hmin : minutes % 60 = t / 60 % 60 := by omega
    rw [hday, hhour, hmin]
    rfl

theorem statsParts_unique {t : Nat} {parts : Parts} (hstats : statsParts t = some parts)
    (htotal : ((parts.day * 24 + parts.hour) * 60 + parts.min) * 60 + parts.sec = t) :
    parts = (Clock.shows t).parts := by
  by_cases hsec : t % 60 = 0
  · rw [statsParts_eq_none hsec] at hstats
    cases hstats
  · obtain rfl := Option.some.inj ((statsParts_eq hsec).symm.trans hstats)
    let clock : Clock := ⟨t / (t % 60) / 60 / 24 % 24, t / (t % 60) / 60 % 24,
      t / (t % 60) % 60, t % 60, Nat.mod_lt _ (by omega), Nat.mod_lt _ (by omega),
      Nat.mod_lt _ (by omega)⟩
    have hclock : clock.total = t := by
      have hint : (clock.total : Int) = t := clock.parts_total.2.2.2.symm.trans htotal
      omega
    have hshows : Clock.shows t = clock := by
      rw [← Clock.shows_total clock, hclock]
    rw [hshows]
    rfl

theorem uptimeRight_iff_coincides (t : Nat) : UptimeRight t ↔ Coincides t := by
  constructor
  · rintro ⟨parts, hstats, -, huptime, -⟩
    rw [← statsParts_eq_iff, hstats, ← huptime, uptimeParts_eq]
  · intro h
    have hmod : t / (t % 60) % 34560 < 34560 := Nat.mod_lt _ (by omega)
    have hdays : t / 86400 < 2 ^ 31 := by
      rw [h.2] at hmod
      omega
    have hright := (Clock.shows t).parts_total
    rw [Clock.total_shows] at hright
    exact ⟨(Clock.shows t).parts, (statsParts_eq_iff t).mpr h, (hostsParts_eq_iff t).mpr hdays,
      uptimeParts_eq t, hright⟩

/-- The durations for which the quotient happens to be right. -/
def coincidences : List Nat :=
  [547747, 573553, 631094, 738061, 754036, 819797, 888678, 942545, 1095487, 1116561, 1200502,
    1287062, 1289003, 1396511, 1481125, 1585706, 1696587, 1829649, 1921879, 1939829, 1964463,
    2073570]

/-- The only duration with these seconds and this number of times that the minutes wrap around. -/
def candidate (sec wraps : Nat) : Nat := (34560 * (sec * wraps) - 1) / (60 - sec) * 60 + sec

theorem candidate_mem : ∀ sec < 31, ∀ wraps < 60, Coincides (candidate sec wraps) →
    candidate sec wraps ∈ coincidences := by
  decide +kernel

theorem coincides_of_mem : ∀ t ∈ coincidences, Coincides t := by
  decide +kernel

/-- With the seconds `s`, a product of the minutes with `60 - s` is less than a multiple of `s`, by
no more than `s`. -/
theorem minutes_window {q s k : Nat} (hs : s < 60) (hle : (q + 34560 * k) * s ≤ q * 60 + s)
    (hlt : q * 60 + s < (q + 34560 * k) * s + s) :
    34560 * (s * k) ≤ q * (60 - s) + s ∧ q * (60 - s) < 34560 * (s * k) := by
  have hsub : q * (60 - s) = q * 60 - q * s := Nat.mul_sub q 60 s
  have hmul : q * s ≤ q * 60 := Nat.mul_le_mul_left q (by omega)
  have hprod : (q + 34560 * k) * s = q * s + 34560 * (s * k) := by
    rw [Nat.add_mul, Nat.mul_assoc, Nat.mul_comm k s]
  omega

/-- The window has room for one product only, and for none if the seconds are many. -/
theorem minutes_unique {q s k : Nat} (hq : q < 34560) (hs : 0 < s) (hs' : s < 60)
    (hle : 34560 * (s * k) ≤ q * (60 - s) + s) (hlt : q * (60 - s) < 34560 * (s * k)) :
    s < 31 ∧ k < 60 ∧ (34560 * (s * k) - 1) / (60 - s) = q := by
  have hk : 0 < k := by
    rcases Nat.eq_zero_or_pos k with rfl | h
    · rw [Nat.mul_zero] at hlt
      omega
    · exact h
  have hseconds : s ≤ s * k := Nat.le_mul_of_pos_right s hk
  have hwraps : k ≤ s * k := Nat.le_mul_of_pos_left k hs
  have hfew : s < 31 := by
    by_contra hmany
    have hprod : q * (60 - s) ≤ q * 29 := Nat.mul_le_mul_left q (by omega)
    omega
  have hprod : q * (60 - s) ≤ q * 59 := Nat.mul_le_mul_left q (by omega)
  refine ⟨hfew, by omega, ?_⟩
  apply Nat.div_eq_of_lt_le
  · omega
  · rw [Nat.add_mul q 1 (60 - s), Nat.one_mul]
    omega

theorem eq_candidate {t : Nat} (h : Coincides t) :
    ∃ sec < 31, ∃ wraps < 60, t = candidate sec wraps := by
  obtain ⟨hsec, hminutes⟩ := h
  have hpos : 0 < t % 60 := Nat.pos_of_ne_zero hsec
  have hmod : t / (t % 60) % 34560 < 34560 := Nat.mod_lt _ (by omega)
  have hlow : t / (t % 60) * (t % 60) ≤ t := Nat.div_mul_le_self t (t % 60)
  have hhigh : t < t / (t % 60) * (t % 60) + t % 60 := Nat.lt_div_mul_add hpos
  have hsplit : t / (t % 60) = t / 60 + 34560 * (t / (t % 60) / 34560) := by
    rw [← hminutes]
    exact (Nat.mod_add_div _ _).symm
  have htime : t = t / 60 * 60 + t % 60 := (Nat.div_add_mod' t 60).symm
  rw [hsplit] at hlow hhigh
  obtain ⟨hle, hlt⟩ := minutes_window (Nat.mod_lt t (by omega))
    (Nat.le_trans hlow (Nat.le_of_eq htime)) (Nat.lt_of_le_of_lt (Nat.le_of_eq htime.symm) hhigh)
  obtain ⟨hfew, hwraps, hquot⟩ :=
    minutes_unique (hminutes ▸ hmod) hpos (Nat.mod_lt t (by omega)) hle hlt
  refine ⟨t % 60, hfew, t / (t % 60) / 34560, hwraps, ?_⟩
  rw [candidate, hquot]
  exact htime

theorem coincides_iff (t : Nat) : Coincides t ↔ t ∈ coincidences := by
  constructor
  · intro h
    obtain ⟨sec, hsec, wraps, hwraps, rfl⟩ := eq_candidate h
    exact candidate_mem sec hsec wraps hwraps h
  · exact fun h => coincides_of_mem t h

/-- The three functions agree for 22 durations, of six to 24 days. -/
theorem uptimeRight_iff (t : Nat) : UptimeRight t ↔ t ∈ coincidences := by
  rw [uptimeRight_iff_coincides, coincides_iff]

theorem stats_total_iff (t : Nat) :
    (∃ parts, statsParts t = some parts ∧
      ((parts.day * 24 + parts.hour) * 60 + parts.min) * 60 + parts.sec = t) ↔
    t ∈ coincidences := by
  rw [← coincides_iff, ← statsParts_eq_iff]
  constructor
  · rintro ⟨parts, hstats, htotal⟩
    rw [hstats, statsParts_unique hstats htotal]
  · intro hstats
    have htotal := (Clock.shows t).parts_total.2.2.2
    rw [Clock.total_shows] at htotal
    exact ⟨(Clock.shows t).parts, hstats, htotal⟩

/-- A minute is a division by zero. -/
theorem uptimeRight_not_minute : ¬ ∀ t : Nat, UptimeRight t := by
  intro h
  obtain ⟨parts, hstats, -⟩ := h 60
  have hnone : statsParts (60 : Nat) = none := statsParts_eq_none rfl
  rw [hnone] at hstats
  cases hstats

/-! ## The text of the control server -/

theorem signedBytes_length_le {n k : Nat} (hk : 0 < k) (hn : n < 10 ^ k) :
    (signedBytes n).length ≤ k := by
  rw [signedBytes_of_nonneg (Int.natCast_nonneg n), Int.toNat_natCast]
  exact length_decimalBytes_le hk hn

theorem twoDigits_length_le {n : Nat} (hn : n < 60) : (twoDigits n).length ≤ 2 := by
  have hlen := @signedBytes_length_le n 2 (by omega) (by omega)
  unfold twoDigits
  split
  · rw [List.length_cons]
    omega
  · exact hlen

/-- A `long` has no more than 19 digits. -/
theorem uptime_eq {t : Nat} (ht : t < 2 ^ 63) : uptime t = uptimeText t := by
  have hday : (Clock.shows t).day < 10 ^ 19 := by
    simp only [Clock.shows]
    omega
  have hparts := uptimeParts_eq t
  generalize Clock.shows t = clock at hday hparts
  have hhour := clock.hour_lt
  have hmin := clock.min_lt
  have hsec := clock.sec_lt
  have hdays := signedBytes_length_le (by omega) hday
  have hhours := @signedBytes_length_le clock.hour 2 (by omega) (by omega)
  have hmins := @signedBytes_length_le clock.min 2 (by omega) (by omega)
  have hmins' := twoDigits_length_le hmin
  have hsecs := @signedBytes_length_le clock.sec 2 (by omega) (by omega)
  apply List.take_of_length_le
  simp only [uptimeText, hparts, Clock.parts, textSize, asciiBytes]
  split_ifs
  all_goals
    simp
    omega

end Serveez.Uptime
