import McpOperator.Proofs.Time.Calendar
import Mathlib.Algebra.Group.Nat.Defs

namespace McpOperator.Instant

theorem isBlank_of_isDigit {c : Char} (h : c.isDigit = true) : Text.isBlank c = false := by
  rw [Char.isDigit_iff_toNat] at h
  have h0 : '0'.toNat = 48 := rfl
  have h9 : '9'.toNat = 57 := rfl
  rw [Text.isBlank]
  generalize c.toNat = n at *
  simp only [Bool.or_eq_false_iff, Bool.and_eq_false_iff, decide_eq_false_iff_not]
  omega

theorem isDigit_of_mem_padded {width n : Nat} {c : Char} (h : c ∈ padded width n) :
    c.isDigit = true := by
  rcases List.mem_append.1 h with h | h
  · rw [List.eq_of_mem_replicate h]
    rfl
  · exact Nat.isDigit_of_mem_toDigits (by omega) (by omega) h

theorem natOfDigits_padded (width n : Nat) : natOfDigits (padded width n) = n := by
  change Nat.ofDigitChars 10 (padded width n) 0 = n
  simp [padded, Nat.ofDigitChars_append]

theorem padded_ne_nil (width n : Nat) : padded width n ≠ [] := by
  simp [padded]

theorem length_padded {width n : Nat} (hw : 0 < width) (h : n < 10 ^ width) :
    (padded width n).length = width := by
  have := (Nat.length_toDigits_le_iff (by omega) hw).2 h
  simp [padded]
  omega

theorem skipBlanks_padded (width n : Nat) (rest : Chars) :
    skipBlanks (padded width n ++ rest) = padded width n ++ rest := by
  cases h : padded width n with
  | nil => exact absurd h (padded_ne_nil width n)
  | cons c cs =>
      have hmem : c ∈ padded width n := by simp [h]
      simp [skipBlanks, isBlank_of_isDigit (isDigit_of_mem_padded hmem)]

theorem number_padded {width n : Nat} (hw : 0 < width) (h : n < 10 ^ width) (rest : Chars) :
    number (some width) (padded width n ++ rest) = .ok (n, rest) := by
  have hlen := length_padded hw h
  have hds : ((padded width n ++ rest).takeWhile Char.isDigit).take width = padded width n := by
    rw [List.takeWhile_append_of_pos fun c hc => isDigit_of_mem_padded hc,
      List.take_append_of_le_length (Nat.le_of_eq hlen.symm), List.take_of_length_le (Nat.le_of_eq hlen)]
  simp [number, hds, padded_ne_nil, natOfDigits_padded]

theorem number_padded_all (width n : Nat) (rest : Chars) (h : rest.head?.all fun c => !c.isDigit) :
    number none (padded width n ++ rest) = .ok (n, rest) := by
  have hrest : rest.takeWhile Char.isDigit = [] := by
    cases rest with
    | nil => rfl
    | cons c cs => simp_all
  have hds : (padded width n ++ rest).takeWhile Char.isDigit = padded width n := by
    rw [List.takeWhile_append_of_pos fun c hc => isDigit_of_mem_padded hc, hrest, List.append_nil]
  have hlen : (padded width n).length ≤ (padded width n ++ rest).length := by simp
  simp only [number, hds, Option.getD_none, List.take_of_length_le hlen]
  simp [padded_ne_nil, natOfDigits_padded]

theorem part_padded {low high n : Nat} (hlow : low ≤ n) (hhigh : n ≤ high) (h : n < 100)
    (rest : Chars) : part low high (padded 2 n ++ rest) = .ok (n, rest) := by
  have hin : (low : Int) ≤ n ∧ (n : Int) ≤ high := by omega
  have hnum : number (some 2) (padded 2 n ++ rest) = .ok (n, rest) := number_padded (by omega) h rest
  simp [part, skipBlanks_padded, hnum, within, hin, bind, Except.bind]

theorem year_of_isDigit {c : Char} (hc : c.isDigit = true) {cs rest : Chars} {n : Nat}
    (h : number (some 4) (c :: cs) = .ok (n, rest)) (hn : n ≤ 9999) :
    year (c :: cs) = .ok ((n : Int), rest) := by
  have hin : -2147483648 ≤ (n : Int) ∧ (n : Int) ≤ 2147483647 := by omega
  have hskip : skipBlanks (c :: cs) = c :: cs := by simp [skipBlanks, isBlank_of_isDigit hc]
  rw [year]
  rw [hskip]
  split
  · rename_i heq
    obtain ⟨rfl, -⟩ := List.cons.inj heq
    cases hc
  · rename_i heq
    obtain ⟨rfl, -⟩ := List.cons.inj heq
    cases hc
  · simp [h, within, hin, Except.map, bind, Except.bind]

theorem year_ofNat {n : Nat} (h : n ≤ 262142) (rest : Chars) :
    year (yearChars n ++ '-' :: rest) = .ok ((n : Int), '-' :: rest) := by
  change year ((if n ≤ 9999 then padded 4 n else '+' :: padded 4 n) ++ '-' :: rest) = _
  by_cases hn : n ≤ 9999
  · have hnum : number (some 4) (padded 4 n ++ '-' :: rest) = .ok (n, '-' :: rest) :=
      number_padded (by omega) (by omega) _
    rw [if_pos hn]
    cases h : padded 4 n with
    | nil => exact absurd h (padded_ne_nil 4 n)
    | cons c cs =>
        have hmem : c ∈ padded 4 n := by simp [h]
        rw [h] at hnum
        exact year_of_isDigit (isDigit_of_mem_padded hmem) hnum hn
  · have hnum := number_padded_all 4 n ('-' :: rest) rfl
    have hplus : Text.isBlank '+' = false := rfl
    have hin : -2147483648 ≤ (n : Int) ∧ (n : Int) ≤ 2147483647 := by omega
    rw [if_neg hn]
    simp [year, skipBlanks, hplus, hnum, Except.map, within, hin, bind, Except.bind]

theorem year_minus {n : Nat} (h : n ≤ 262143) (rest : Chars) :
    year ('-' :: (padded 4 n ++ '-' :: rest)) = .ok (-(n : Int), '-' :: rest) := by
  have hnum := number_padded_all 4 n ('-' :: rest) rfl
  have hskip : skipBlanks ('-' :: (padded 4 n ++ '-' :: rest)) =
    '-' :: (padded 4 n ++ '-' :: rest) := rfl
  have hin : within (-2147483648) 2147483647 (-(n : Int)) = .ok () := if_pos (by omega)
  simp only [year, hskip, hnum, Except.map, bind, Except.bind, hin]

theorem year_yearChars {y : Int} (hlow : -262143 ≤ y) (hhigh : y ≤ 262142) (rest : Chars) :
    year (yearChars y ++ '-' :: rest) = .ok (y, '-' :: rest) := by
  cases y with
  | ofNat n => exact year_ofNat (Int.ofNat_le.1 hhigh) rest
  | negSucc n => exact year_minus (n := n + 1) (by omega) rest

/-- A written date and clock time are read as the point in time that they stand for, if there is one. -/
theorem ofChars_written {p : Place} {hour minute second : Nat} (hlow : -96465292 ≤ p.days)
    (hhigh : p.days ≤ 95026236) (hhour : hour ≤ 23) (hminute : minute ≤ 59) (hsecond : second ≤ 60)
    {t : Instant}
    (ht : of? (p.days * 86400 + (hour * 3600 + minute * 60 + min second 59 : Nat))
      (if second = 60 then 1000000000 else 0) = some t) :
    ofChars (yearChars p.civilYear ++ '-' :: (padded 2 p.month ++ '-' :: (padded 2 p.dayOfMonth ++
      'T' :: (padded 2 hour ++ ':' :: (padded 2 minute ++ ':' :: (padded 2 second ++ ['Z'])))))) =
      .ok t := by
  obtain ⟨hy1, hy2⟩ := p.civilYear_range hlow hhigh
  obtain ⟨hm1, hm2⟩ := p.month_range
  obtain ⟨hd1, hd2⟩ := p.dayOfMonth_range
  have hd3 : daysInMonth p.civilYear p.month ≤ 31 := by
    rw [daysInMonth]
    split
    · split <;> omega
    · split <;> omega
  have hd : (1 : Int) ≤ p.dayOfMonth ∧ (p.dayOfMonth : Int) ≤ daysInMonth p.civilYear p.month := by
    omega
  have hyear : within (-262143) 262142 p.civilYear = .ok () := if_pos ⟨hy1, hy2⟩
  have hday : within 1 (daysInMonth p.civilYear p.month) p.dayOfMonth = .ok () := if_pos hd
  have hahead : within (-86399) 86399 0 = .ok () := rfl
  have hfraction : readFraction ['Z'] = .ok (0, ['Z']) := rfl
  have hzone : skipBlanks ['Z'] = ['Z'] := rfl
  have hoffset : offset ['Z'] = .ok (0, []) := rfl
  have hempty : skipBlanks [] = [] := rfl
  rw [ofChars]
  rw [year_yearChars hy1 hy2]
  simp only [bind, Except.bind, expect, if_true, separator, true_or,
    part_padded hm1 hm2 (by omega), part_padded hd1 (Nat.le_trans hd2 hd3) (by omega),
    part_padded (Nat.zero_le hour) hhour (by omega),
    part_padded (Nat.zero_le minute) hminute (by omega),
    part_padded (Nat.zero_le second) hsecond (by omega), hfraction, hzone, hoffset, hempty,
    Place.daysFromCivil_civil]
  simp only [hyear, hday, hahead, List.isEmpty_nil, Bool.not_true, Bool.false_eq_true, if_false,
    Int.sub_zero, Nat.add_zero, ht]

theorem ofText_text (t : Instant) : ofText t.text = .ok t.wholeSeconds := by
  obtain ⟨h1, h2⟩ := t.inRange
  rw [earliest] at h1
  rw [latest] at h2
  have hf := t.fraction
  obtain ⟨p, hp⟩ := Place.exists_days (t.seconds / 86400)
  have hclock : (t.seconds - t.seconds / 86400 * 86400).toNat < 86400 := by omega
  have hsum : p.days * 86400 + ((t.seconds - t.seconds / 86400 * 86400).toNat : Int) = t.seconds := by
    omega
  have hmod : ((t.seconds - t.seconds / 86400 * 86400).toNat % 60 : Int) = t.seconds % 60 := by omega
  unfold ofText text
  simp only [← hp, Place.civilFromDays_days]
  rw [hp]
  generalize (t.seconds - t.seconds / 86400 * 86400).toNat = clock at *
  simp only [String.toList_ofList, List.append_assoc, List.cons_append]
  have hs : (clock / 3600) * 3600 + clock / 60 % 60 * 60 +
      min (clock % 60 + (if 1000000000 ≤ t.nanos then 1 else 0)) 59 = clock := by
    split
    · omega
    · omega
  have hn : (if clock % 60 + (if 1000000000 ≤ t.nanos then 1 else 0) = 60 then 1000000000 else 0) =
      t.wholeSeconds.nanos := by
    change _ = if 1000000000 ≤ t.nanos then 1000000000 else 0
    split <;> split <;> omega
  apply ofChars_written (by omega) (by omega) (by omega) (by omega) (by split <;> omega)
  rw [hs, hn, hsum]
  exact dif_pos ⟨t.inRange, t.wholeSeconds.fraction⟩

@[simp] theorem text_wholeSeconds (t : Instant) : t.wholeSeconds.text = t.text := by
  have hleap : (1000000000 ≤ t.wholeSeconds.nanos) = (1000000000 ≤ t.nanos) := by
    change (1000000000 ≤ if 1000000000 ≤ t.nanos then 1000000000 else 0) = _
    split <;> simp_all
  rw [text]
  simp only [hleap]
  rfl

end McpOperator.Instant
