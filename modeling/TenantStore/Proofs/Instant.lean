import Mathlib.Data.Nat.Digits.Defs
import TenantStore.Instant
import TenantStore.Proofs.Access

/-!
# The text of an instant

An instant reads back from its text (`Instant.read_text`), whatever its year is and however many
digits its fraction has: each part is written with as many digits as reading takes at most, or with
something behind it that is no digit. Whatever is read is an instant again, since moving a time to
UTC stays in the calendar (`Instant.valid_of_read`).
-/

namespace TenantStore

/-! ## Digits -/

namespace Text

theorem digit?_of_isDigit {c : Char} (h : c.isDigit = true) :
    digit? c = some (c.toNat - '0'.toNat) := by
  have hrange : '0' ≤ c ∧ c ≤ '9' := by
    simpa [Char.isDigit, Char.le_def, UInt32.le_iff_toNat_le] using h
  exact if_pos hrange

theorem isSpace_eq_false_of_isDigit {c : Char} (h : c.isDigit = true) : isSpace c = false := by
  have hrange : 48 ≤ c.toNat ∧ c.toNat ≤ 57 := by
    simpa [Char.isDigit, UInt32.le_iff_toNat_le] using h
  simp [isSpace, spaceRanges]
  omega

end Text

/-! ## Days -/

namespace Day

variable {d : Day}

theorem daysInMonth_bounds (year : Int) (month : Nat) :
    28 ≤ daysInMonth year month ∧ daysInMonth year month ≤ 31 := by
  unfold daysInMonth
  split
  · split <;> decide
  · split <;> decide

theorem Valid.next (h : d.Valid) : d.next.Valid := by
  obtain ⟨hmonth, hmonths, hday, hdays⟩ := h
  unfold Day.next
  split
  · next hlast => exact ⟨hmonth, hmonths, Nat.succ_pos _, hlast⟩
  split
  · next hlast =>
      have hlength := (daysInMonth_bounds d.year (d.month + 1)).1
      exact ⟨Nat.succ_pos _, hlast, le_rfl, by dsimp only; omega⟩
  · exact ⟨le_rfl, (by decide : 1 ≤ 12), le_rfl, (by decide : 1 ≤ 31)⟩

theorem Valid.previous (h : d.Valid) : d.previous.Valid := by
  obtain ⟨hmonth, hmonths, hday, hdays⟩ := h
  unfold Day.previous
  split
  · exact ⟨hmonth, hmonths, by dsimp only; omega, by dsimp only; omega⟩
  split
  · have hlength := (daysInMonth_bounds d.year (d.month - 1)).1
    exact ⟨by dsimp only; omega, by dsimp only; omega, by dsimp only; omega, le_rfl⟩
  · exact ⟨(by decide : 1 ≤ 12), le_rfl, (by decide : 1 ≤ 31), le_rfl⟩

end Day

namespace Instant

/-! ## Numbers -/

theorem toList_padded (width n : Nat) :
    (padded width n).toList =
      List.replicate (width - (Nat.toDigits 10 n).length) '0' ++ Nat.toDigits 10 n :=
  String.toList_ofList

theorem isDigit_of_mem_padded {width n : Nat} {c : Char} (h : c ∈ (padded width n).toList) :
    c.isDigit = true := by
  rw [toList_padded, List.mem_append] at h
  rcases h with h | h
  · rw [List.eq_of_mem_replicate h]
    rfl
  · exact Nat.isDigit_of_mem_toDigits (by decide) (by decide) h

theorem exists_padded_eq_cons (width n : Nat) :
    ∃ c cs, (padded width n).toList = c :: cs ∧ c.isDigit = true := by
  cases hpadded : (padded width n).toList with
  | nil =>
      rw [toList_padded] at hpadded
      exact absurd (List.append_eq_nil_iff.mp hpadded).2 Nat.toDigits_ne_nil
  | cons c cs =>
      have hc : c ∈ (padded width n).toList := by
        rw [hpadded]
        exact List.mem_cons_self
      exact ⟨c, cs, rfl, isDigit_of_mem_padded hc⟩

/-- A number that fits its width is written in that width. -/
theorem length_padded {width n : Nat} (hwidth : 0 < width) (hn : n < 10 ^ width) :
    (padded width n).toList.length = width := by
  have hle := (Nat.length_toDigits_le_iff (by decide : 1 < 10) hwidth).mpr hn
  rw [toList_padded, List.length_append, List.length_replicate]
  omega

/-- Zeros in front of a number do not count. -/
theorem ofDigitChars_padded (width n : Nat) :
    Nat.ofDigitChars 10 (padded width n).toList 0 = n := by
  rw [toList_padded, Nat.ofDigitChars_append, Nat.ofDigitChars_replicate_zero, Nat.mul_zero,
    Nat.ofDigitChars_ten_toDigits]

/-- Reading goes on to the limit, or to something that is no digit. -/
theorem readDigits_append {ds rest : List Char} (hds : ∀ c ∈ ds, c.isDigit = true) {limit : Nat}
    (hlimit : ds.length ≤ limit)
    (hrest : ds.length = limit ∨ ∀ c ∈ rest.head?, Text.digit? c = none) (n : Nat) :
    readDigits limit n (ds ++ rest) = (Nat.ofDigitChars 10 ds n, rest) := by
  induction ds generalizing limit n with
  | nil =>
      rw [List.nil_append, Nat.ofDigitChars_nil]
      cases limit with
      | zero => rw [readDigits]; simp
      | succ limit =>
          cases rest with
          | nil => rw [readDigits]; simp
          | cons c cs =>
              have hc := hrest.resolve_left (Nat.zero_ne_add_one limit) c rfl
              simp only [readDigits, hc]
  | cons d ds ih =>
      cases limit with
      | zero => cases hlimit
      | succ limit =>
          have hd := Text.digit?_of_isDigit (hds d List.mem_cons_self)
          simp only [List.cons_append, readDigits, hd, Nat.ofDigitChars_cons]
          refine ih (fun c hc => hds c (List.mem_cons_of_mem _ hc)) (Nat.le_of_succ_le_succ hlimit)
            (hrest.imp_left Nat.succ.inj) _

theorem readNumber_padded {limit width n : Nat} {rest : List Char}
    (hlimit : (padded width n).toList.length ≤ limit)
    (hrest : (padded width n).toList.length = limit ∨ ∀ c ∈ rest.head?, Text.digit? c = none) :
    readNumber limit ((padded width n).toList ++ rest) = .ok (n, rest) := by
  have hread := readDigits_append (fun _ => isDigit_of_mem_padded) hlimit hrest 0
  rw [ofDigitChars_padded] at hread
  obtain ⟨c, cs, hpadded, hc⟩ := exists_padded_eq_cons width n
  rw [hpadded] at hread ⊢
  rw [List.cons_append, readNumber, if_pos (by rw [Text.digit?_of_isDigit hc]; rfl), ← hread]
  rfl

theorem skipBlanks_padded (width n : Nat) (rest : List Char) :
    skipBlanks ((padded width n).toList ++ rest) = (padded width n).toList ++ rest := by
  obtain ⟨c, cs, hpadded, hc⟩ := exists_padded_eq_cons width n
  have hspace : ¬ Text.isSpace c = true := by
    rw [Text.isSpace_eq_false_of_isDigit hc]
    exact nofun
  rw [hpadded, skipBlanks, List.cons_append, List.dropWhile_cons_of_neg hspace]

/-- A part of the calendar or the clock reads back, whatever stands behind it. -/
theorem readPart_padded {least greatest n : Nat} (hn : n < 100) (hleast : least ≤ n)
    (hgreatest : n ≤ greatest) (rest : List Char) :
    readPart least greatest ((padded 2 n).toList ++ rest) = .ok (n, rest) := by
  have hlength : (padded 2 n).toList.length = 2 := length_padded (by decide) hn
  rw [readPart, skipBlanks_padded, readNumber_padded hlength.le (.inl hlength)]
  show (if least ≤ n ∧ n ≤ greatest then _ else _) = _
  rw [if_pos ⟨hleast, hgreatest⟩]
  rfl

/-! ## Parts of the text -/

theorem readMark_cons {marks : List Char} {c : Char} (h : c ∈ marks) (cs : List Char) :
    readMark marks (c :: cs) = .ok cs :=
  if_pos h

theorem toList_yearText_of_four {year : Int} (h : 0 ≤ year ∧ year ≤ 9999) :
    (yearText year).toList = (padded 4 year.toNat).toList := by
  rw [yearText, if_pos h]

theorem toList_yearText_of_sign {year : Int} (h : ¬ (0 ≤ year ∧ year ≤ 9999)) :
    (yearText year).toList =
      (if year < 0 then '-' else '+') :: (padded 4 year.natAbs).toList := by
  rw [yearText, if_neg h, String.toList_append]
  split <;> rfl

theorem skipBlanks_yearText (year : Int) (rest : List Char) :
    skipBlanks ((yearText year).toList ++ rest) = (yearText year).toList ++ rest := by
  by_cases h : 0 ≤ year ∧ year ≤ 9999
  · rw [toList_yearText_of_four h, skipBlanks_padded]
  · rw [toList_yearText_of_sign h]
    refine List.dropWhile_cons_of_neg ?_
    split <;> decide

/-- A year reads back in front of a mark. -/
theorem readSigned_yearText (year : Int) (rest : List Char) :
    readSigned ((yearText year).toList ++ '-' :: rest) = .ok (year, '-' :: rest) := by
  have hmark : ∀ c ∈ ('-' :: rest).head?, Text.digit? c = none := by
    rintro c ⟨⟩
    decide
  by_cases h : 0 ≤ year ∧ year ≤ 9999
  · have hlength : (padded 4 year.toNat).toList.length = 4 :=
      length_padded (by decide) (by norm_num; omega)
    have hread : readNumber 4 ((padded 4 year.toNat).toList ++ '-' :: rest) =
        .ok (year.toNat, '-' :: rest) := readNumber_padded hlength.le (.inl hlength)
    obtain ⟨c, cs, hpadded, hc⟩ := exists_padded_eq_cons 4 year.toNat
    rw [toList_yearText_of_four h, readSigned.eq_def]
    -- the text begins with a digit, and so with neither of the signs
    split
    · next hsign =>
        rw [hpadded] at hsign
        cases hsign
        cases hc
    · next hsign =>
        rw [hpadded] at hsign
        cases hsign
        cases hc
    · rw [hread]
      exact congrArg (fun n => Except.ok (n, '-' :: rest)) (Int.toNat_of_nonneg h.1)
  · have hlimit := Nat.le_add_right (padded 4 year.natAbs).toList.length ('-' :: rest).length
    rw [← List.length_append] at hlimit
    have hread := readNumber_padded hlimit (.inr hmark)
    rw [toList_yearText_of_sign h]
    by_cases hneg : year < 0
    · rw [if_pos hneg, List.cons_append, readSigned, hread]
      exact congrArg (fun n => Except.ok (n, '-' :: rest)) (by omega)
    · rw [if_neg hneg, List.cons_append, readSigned, hread]
      exact congrArg (fun n => Except.ok (n, '-' :: rest)) (by omega)

/-- Digits behind a point read back as a fraction in front of a mark. -/
theorem readFraction_padded {count n : Nat} (hcount : 0 < count) (hnine : count ≤ 9)
    (hn : n < 10 ^ count) (rest : List Char) :
    readFraction ('.' :: ((padded count n).toList ++ 'Z' :: rest)) =
      .ok (n * 10 ^ (9 - count), 'Z' :: rest) := by
  have hlength := length_padded hcount hn
  have hmark : ∀ c ∈ ('Z' :: rest).head?, Text.digit? c = none := by
    rintro c ⟨⟩
    decide
  have hread := readNumber_padded (hlength.trans_le hnine) (.inr hmark)
  have hused : ((padded count n).toList ++ 'Z' :: rest).length - ('Z' :: rest).length = count := by
    rw [List.length_append, hlength, Nat.add_sub_cancel]
  have hbound : n * 10 ^ (9 - count) < 10 ^ 9 := by
    rw [← Nat.add_sub_cancel' hnine, Nat.pow_add, Nat.add_sub_cancel_left]
    exact Nat.mul_lt_mul_of_pos_right hn (Nat.pow_pos (by decide))
  rw [readFraction, hread]
  show (if n * 10 ^ (9 - (((padded count n).toList ++ 'Z' :: rest).length -
    ('Z' :: rest).length)) < 10 ^ 9 then _ else _) = _
  rw [hused, if_pos hbound]
  rfl

/-- The fraction of a second reads back in front of a mark. -/
theorem readFraction_fractionText {n : Nat} (hn : n < 10 ^ 9) (rest : List Char) :
    readFraction ((fractionText n).toList ++ 'Z' :: rest) = .ok (n, 'Z' :: rest) := by
  have hpoint (count m : Nat) : ("." ++ padded count m).toList = '.' :: (padded count m).toList :=
    String.toList_append
  have hscaled {m : Nat} (h : m = n) :
      (Except.ok (m, 'Z' :: rest) : Except Flaw _) = .ok (n, 'Z' :: rest) := by rw [h]
  rw [fractionText]
  split
  · next hzero =>
      rw [hzero]
      rfl
  split
  · next hmilli =>
      rw [hpoint, List.cons_append, readFraction_padded (by decide) (by decide) (by omega)]
      exact hscaled (Nat.div_mul_cancel (Nat.dvd_of_mod_eq_zero hmilli))
  split
  · next hmicro =>
      rw [hpoint, List.cons_append, readFraction_padded (by decide) (by decide) (by omega)]
      exact hscaled (Nat.div_mul_cancel (Nat.dvd_of_mod_eq_zero hmicro))
  · rw [hpoint, List.cons_append, readFraction_padded (by decide) (by decide) hn]
    exact hscaled (Nat.mul_one n)

/-! ## Instants -/

/-- The instant is one of the calendar and the clock. -/
structure Valid (t : Instant) : Prop where
  date : t.date.Valid
  range : t.date.InRange
  hour : t.hour < 24
  minute : t.minute < 60
  second : t.second ≤ 60
  nanosecond : t.nanosecond < 10 ^ 9

/-- A time that is moved by less than a day stays in the calendar and on the clock. -/
theorem shift_spec {date : Day} (h : date.Valid) {minutes : Int} (hleast : -1440 < minutes)
    (hgreatest : minutes < 2880) :
    (shift date minutes).1.Valid ∧ (shift date minutes).2 < 1440 := by
  unfold shift
  split
  · exact ⟨h.previous, by dsimp only; omega⟩
  split
  · exact ⟨h.next, by dsimp only; omega⟩
  · exact ⟨h, by dsimp only; omega⟩

/-- An instant of UTC is its own local time. -/
theorem Valid.ofLocal_zero {t : Instant} (h : t.Valid) : ofLocal t 0 = .ok t := by
  have hhour := h.hour
  have hminute := h.minute
  have hshift : shift t.date (t.hour * 60 + t.minute - 0) = (t.date, t.hour * 60 + t.minute) := by
    rw [shift, if_neg (by omega), if_neg (by omega)]
    exact congrArg (Prod.mk t.date) (by omega)
  rw [ofLocal, if_pos ⟨h.date, h.range, by decide⟩, hshift]
  dsimp only
  rw [if_pos h.range, show (t.hour * 60 + t.minute) / 60 = t.hour by omega,
    show (t.hour * 60 + t.minute) % 60 = t.minute by omega]

/-- A day reads back, whatever stands behind it. -/
theorem readDay_text {d : Day} (h : d.Valid) (hrange : d.InRange) (rest : List Char) :
    readDay ((yearText d.year).toList ++ '-' ::
      ((padded 2 d.month).toList ++ '-' :: ((padded 2 d.day).toList ++ rest))) =
      .ok (d, rest) := by
  obtain ⟨hmonth, hmonths, hday, hdays⟩ := h
  have hdays : d.day ≤ 31 := hdays.trans (Day.daysInMonth_bounds _ _).2
  have hbound : -Int.pow 2 31 ≤ d.year ∧ d.year < Int.pow 2 31 := by
    have hpow : Int.pow 2 31 = 2147483648 := rfl
    unfold Day.InRange at hrange
    omega
  have hmark (cs : List Char) : readMark ['-'] ('-' :: cs) = .ok cs :=
    readMark_cons List.mem_cons_self cs
  have hyear (cs : List Char) :
      readYear ((yearText d.year).toList ++ '-' :: cs) = .ok (d.year, '-' :: cs) := by
    rw [readYear, skipBlanks_yearText, readSigned_yearText]
    exact if_pos hbound
  simp only [readDay, hyear, hmark, readPart_padded (by omega : d.month < 100) hmonth hmonths,
    readPart_padded (by omega : d.day < 100) hday hdays, bind, Except.bind]
  rfl

/-- An instant reads back from its text. -/
theorem read_text {t : Instant} (h : t.Valid) : read t.text = .ok t := by
  have htext : t.text.toList =
      (yearText t.date.year).toList ++ '-' ::
        ((padded 2 t.date.month).toList ++ '-' ::
          ((padded 2 t.date.day).toList ++ 'T' ::
            ((padded 2 t.hour).toList ++ ':' ::
              ((padded 2 t.minute).toList ++ ':' ::
                ((padded 2 t.second).toList ++
                  ((fractionText t.nanosecond).toList ++ ['Z'])))))) := by
    simp [text]
  have hhour := h.hour
  have hminute := h.minute
  have hsecond := h.second
  have hclock (cs : List Char) : readMark ['T', 't', ' '] ('T' :: cs) = .ok cs :=
    readMark_cons List.mem_cons_self cs
  have hcolon (cs : List Char) : readMark [':'] (':' :: cs) = .ok cs :=
    readMark_cons List.mem_cons_self cs
  have hoffset : readOffset (skipBlanks ['Z']) = .ok (0, []) := by decide
  simp only [read, htext, readDay_text h.date h.range, hclock, hcolon,
    readPart_padded (by omega : t.hour < 100) (Nat.zero_le _) (Nat.le_of_lt_succ hhour),
    readPart_padded (by omega : t.minute < 100) (Nat.zero_le _) (Nat.le_of_lt_succ hminute),
    readPart_padded (by omega : t.second < 100) (Nat.zero_le _) hsecond,
    readFraction_fractionText h.nanosecond, hoffset, bind, Except.bind]
  exact h.ofLocal_zero

/-! ## What is read -/

/-- A time that is moved to UTC is an instant. -/
theorem valid_of_ofLocal {t u : Instant} (hhour : t.hour < 24) (hminute : t.minute < 60)
    (hsecond : t.second ≤ 60) (hnanosecond : t.nanosecond < 10 ^ 9) {offset : Int}
    (h : ofLocal t offset = .ok u) : u.Valid := by
  rw [ofLocal] at h
  split at h
  · next hlocal =>
      obtain ⟨hdate, -, hoffset⟩ := hlocal
      dsimp only at h
      split at h
      · next hrange =>
          cases h
          have hleast : -1440 < (t.hour * 60 + t.minute - offset : Int) := by omega
          obtain ⟨hvalid, hminutes⟩ := shift_spec hdate hleast (by omega)
          exact ⟨hvalid, hrange, by dsimp only; omega, by dsimp only; omega, hsecond, hnanosecond⟩
      · cases h
  · cases h

theorem readPart_bounds {least greatest n : Nat} {cs rest : List Char}
    (h : readPart least greatest cs = .ok (n, rest)) : least ≤ n ∧ n ≤ greatest := by
  obtain ⟨⟨m, after⟩, -, h⟩ := exists_of_bind_eq_ok h
  dsimp only at h
  split at h
  · next hbounds =>
      cases h
      exact hbounds
  · cases h

theorem readFraction_lt {n : Nat} {cs rest : List Char} (h : readFraction cs = .ok (n, rest)) :
    n < 10 ^ 9 := by
  rw [readFraction.eq_def] at h
  split at h
  · obtain ⟨⟨m, after⟩, -, h⟩ := exists_of_bind_eq_ok h
    dsimp only at h
    split at h
    · next hbound =>
        cases h
        exact hbound
    · cases h
  · cases h
    exact Nat.pow_pos (by decide)

/-- Whatever is read is an instant. -/
theorem valid_of_read {s : String} {t : Instant} (h : read s = .ok t) : t.Valid := by
  obtain ⟨⟨date, cs⟩, -, h⟩ := exists_of_bind_eq_ok h
  obtain ⟨cs, -, h⟩ := exists_of_bind_eq_ok h
  obtain ⟨⟨hour, cs⟩, hhour, h⟩ := exists_of_bind_eq_ok h
  obtain ⟨cs, -, h⟩ := exists_of_bind_eq_ok h
  obtain ⟨⟨minute, cs⟩, hminute, h⟩ := exists_of_bind_eq_ok h
  obtain ⟨cs, -, h⟩ := exists_of_bind_eq_ok h
  obtain ⟨⟨second, cs⟩, hsecond, h⟩ := exists_of_bind_eq_ok h
  obtain ⟨⟨nanosecond, cs⟩, hnanosecond, h⟩ := exists_of_bind_eq_ok h
  obtain ⟨⟨offset, cs⟩, -, h⟩ := exists_of_bind_eq_ok h
  dsimp only at h
  split at h
  · exact valid_of_ofLocal (Nat.lt_succ_of_le (readPart_bounds hhour).2)
      (Nat.lt_succ_of_le (readPart_bounds hminute).2) (readPart_bounds hsecond).2
      (readFraction_lt hnanosecond) h
  · cases h

end Instant
end TenantStore
