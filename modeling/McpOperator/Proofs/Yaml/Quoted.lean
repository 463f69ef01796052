import McpOperator.Yaml.Scalar
import McpOperator.Yaml.Writer
import Mathlib.Algebra.Group.Nat.Defs

namespace McpOperator.Yaml

def pushDigit (base n : Nat) (c : Char) : Option Nat := do
  let v ← Json.Token.hexValue? c
  if v < base then some (base * n + v) else none

theorem digits?_eq (base : Nat) {cs : List Char} (h : cs ≠ []) :
    digits? base cs = cs.foldlM (pushDigit base) 0 := by
  cases cs with
  | nil => exact absurd rfl h
  | cons c cs => rfl

theorem foldlM_toDigits {base : Nat} (hbase : 1 < base) {f : Char → Char}
    (hf : ∀ d < base, Json.Token.hexValue? (f (Nat.digitChar d)) = some d) (n : Nat) :
    ((Nat.toDigits base n).map f).foldlM (pushDigit base) 0 = some n := by
  induction n using Nat.strongRecOn with
  | ind n ih =>
      rw [Nat.toDigits_eq_if hbase]
      split
      · rename_i hn
        simp [pushDigit, hf n hn, hn]
      · have hlt : n / base < n := Nat.div_lt_self (by omega) hbase
        have hmod : n % base < base := Nat.mod_lt n (by omega)
        simp [List.foldlM_append, ih _ hlt, pushDigit, hf _ hmod, hmod, Nat.div_add_mod]

theorem digits?_toDigits (n : Nat) : digits? 10 (Nat.toDigits 10 n) = some n := by
  have h := foldlM_toDigits (f := id) (by decide : 1 < 10) (by decide) n
  rwa [List.map_id, ← digits?_eq 10 Nat.toDigits_ne_nil] at h

theorem foldlM_upperHex (width n : Nat) : (upperHex width n).foldlM (pushDigit 16) 0 = some n := by
  have hzeros : ∀ k, (List.replicate k '0').foldlM (pushDigit 16) 0 = some 0 := by
    intro k
    induction k with
    | zero => rfl
    | succ k ih => exact ih
  have h := foldlM_toDigits (f := Char.toUpper) (by decide : 1 < 16) (by decide) n
  simp only [upperHex, List.foldlM_append, hzeros]
  exact h

theorem upperHex_inj {v w m n : Nat} (h : upperHex v m = upperHex w n) : m = n := by
  have hm := foldlM_upperHex v m
  rw [h, foldlM_upperHex w n] at hm
  exact (Option.some.inj hm).symm

theorem length_upperHex {width n : Nat} (hw : 0 < width) (h : n < 16 ^ width) :
    (upperHex width n).length = width := by
  have hle := (Nat.length_toDigits_le_iff (by decide : 1 < 16) hw).2 h
  simp [upperHex]
  omega

theorem escape_cases (c : Char) :
    (∃ e, escape c = ['\\', e] ∧ escaped? e = some c) ∨
      ∃ k width, escape c = '\\' :: k :: upperHex width c.toNat ∧ escaped? k = none ∧
        codeWidth? k = some width ∧ 0 < width ∧ c.toNat < 16 ^ width := by
  have hvalid : c.toNat < 16 ^ 8 := c.val.toNat_lt
  have hchar := c.ofNat_toNat
  rw [escape]
  split
  case h_15 =>
    refine .inr ?_
    split
    · exact ⟨'x', 2, rfl, rfl, rfl, by decide, by omega⟩
    · split
      · exact ⟨'u', 4, rfl, rfl, rfl, by decide, by omega⟩
      · exact ⟨'U', 8, rfl, rfl, rfl, by decide, hvalid⟩
  all_goals
    rename_i hcode
    rw [hcode] at hchar
    rw [← hchar]
    exact .inl ⟨_, rfl, rfl⟩

theorem escape_append_inj {c d : Char} {r s : List Char} (h : escape c ++ r = escape d ++ s) :
    c = d ∧ r = s := by
  rcases escape_cases c with ⟨e, hc, he⟩ | ⟨k, v, hc, hk, hv, hpos, hlt⟩ <;>
    rcases escape_cases d with ⟨e', hd, he'⟩ | ⟨k', w, hd, hk', hw, hpos', hlt'⟩ <;>
    rw [hc, hd] at h <;> injection h with _ h <;> injection h with heq h <;> subst heq
  · exact ⟨Option.some.inj (he.symm.trans he'), h⟩
  · rw [hk'] at he
    cases he
  · rw [hk] at he'
    cases he'
  · obtain rfl : v = w := Option.some.inj (hv.symm.trans hw)
    obtain ⟨hcode, hrest⟩ := List.append_inj h
      (by rw [length_upperHex hpos hlt, length_upperHex hpos hlt'])
    exact ⟨Char.toNat_inj.1 (upperHex_inj hcode), hrest⟩

def coded (unit : Bool → Char → List Char) (close : Bool → List Char) : Bool → List Char → List Char
  | fresh, [] => close fresh
  | fresh, c :: cs => unit fresh c ++ coded unit close (isBreak c) cs

def freshAfter : Bool → List Char → Bool
  | fresh, [] => fresh
  | _, c :: cs => freshAfter (isBreak c) cs

/-- Where each unit can be told from the next and the end from all of them, so can the texts. -/
theorem coded_append_inj (unit : Bool → Char → List Char) {close : Bool → List Char}
    {P : Bool → List Char → Prop}
    (hunit : ∀ fresh c d r s, unit fresh c ++ r = unit fresh d ++ s → c = d ∧ r = s)
    (hclose : ∀ fresh c r s, P fresh r → close fresh ++ r ≠ unit fresh c ++ s)
    {fresh : Bool} {cs ds r s : List Char} (hr : P (freshAfter fresh cs) r)
    (hs : P (freshAfter fresh ds) s)
    (h : coded unit close fresh cs ++ r = coded unit close fresh ds ++ s) : cs = ds ∧ r = s := by
  induction cs generalizing fresh ds with
  | nil =>
      cases ds with
      | nil => exact ⟨rfl, List.append_cancel_left h⟩
      | cons d ds =>
          -- One text is over where the other one goes on.
          rw [coded, coded, List.append_assoc] at h
          exact absurd h (hclose _ _ _ _ hr)
  | cons c cs ih =>
      cases ds with
      | nil =>
          rw [coded, coded, List.append_assoc] at h
          exact absurd h.symm (hclose _ _ _ _ hs)
      | cons d ds =>
          rw [coded, coded, List.append_assoc, List.append_assoc] at h
          obtain ⟨rfl, htail⟩ := hunit _ _ _ _ _ h
          obtain ⟨rfl, rfl⟩ := ih hr hs htail
          exact ⟨rfl, rfl⟩

def margin (indent : Nat) (fresh : Bool) : List Char := if fresh then spaces indent else []

theorem margin_ne_break {indent : Nat} {fresh : Bool} {c d : Char} {r s : List Char}
    (hc : isBreak c = true) (hd : isBreak d = false) : c :: r ≠ margin indent fresh ++ d :: s := by
  intro h
  cases hm : margin indent fresh with
  | nil =>
      rw [hm] at h
      obtain ⟨rfl, -⟩ := List.cons.inj h
      rw [hc] at hd
      cases hd
  | cons e es =>
      have he : e ∈ margin indent fresh := by simp [hm]
      have hspace : e = ' ' := by
        rw [margin] at he
        split at he
        · exact List.eq_of_mem_replicate he
        · cases he
      rw [hm, hspace] at h
      obtain ⟨rfl, -⟩ := List.cons.inj h
      cases hc

def lineUnit (more : Char → List Char) (indent : Nat) (fresh : Bool) (c : Char) : List Char :=
  if isBreak c then [c] else margin indent fresh ++ c :: more c

theorem lineUnit_append_inj {more : Char → List Char} {indent : Nat} {fresh : Bool} {c d : Char}
    {r s : List Char} (h : lineUnit more indent fresh c ++ r = lineUnit more indent fresh d ++ s) :
    c = d ∧ r = s := by
  rw [lineUnit, lineUnit] at h
  cases hc : isBreak c <;> cases hd : isBreak d <;>
    simp only [hc, hd, if_true, Bool.false_eq_true, if_false, List.append_assoc] at h
  · obtain ⟨rfl, htail⟩ := List.cons.inj (List.append_cancel_left h)
    exact ⟨rfl, List.append_cancel_left htail⟩
  · exact absurd h.symm (margin_ne_break hd hc)
  · exact absurd h (margin_ne_break hc hd)
  · exact List.cons.inj h

def doubleUnit (c : Char) : List Char :=
  if isSpecial c || isBreak c || c = '"' || c = '\\' then escape c else [c]

theorem doubleQuotedBody_eq (fresh : Bool) (cs : List Char) :
    doubleQuotedBody cs ++ ['"'] = coded (fun _ => doubleUnit) (fun _ => ['"']) fresh cs := by
  induction cs generalizing fresh with
  | nil => rfl
  | cons c cs ih =>
      rw [coded, ← ih]
      exact List.append_assoc ..

theorem escape_head (c : Char) : ∃ r, escape c = '\\' :: r := by
  rcases escape_cases c with ⟨e, hc, -⟩ | ⟨k, width, hc, -⟩ <;> exact ⟨_, hc⟩

theorem doubleUnit_cases (c : Char) :
    doubleUnit c = escape c ∨ (doubleUnit c = [c] ∧ c ≠ '"' ∧ c ≠ '\\') := by
  rw [doubleUnit]
  split
  · exact .inl rfl
  · rename_i hc
    simp only [Bool.or_eq_true, decide_eq_true_eq, not_or] at hc
    exact .inr ⟨rfl, hc.1.2, hc.2⟩

theorem doubleUnit_append_inj {c d : Char} {r s : List Char}
    (h : doubleUnit c ++ r = doubleUnit d ++ s) : c = d ∧ r = s := by
  obtain ⟨x, hx⟩ := escape_head c
  obtain ⟨y, hy⟩ := escape_head d
  rcases doubleUnit_cases c with hc | ⟨hc, -, hne⟩ <;>
    rcases doubleUnit_cases d with hd | ⟨hd, -, hne'⟩ <;> rw [hc, hd] at h
  · exact escape_append_inj h
  · rw [hx] at h
    exact absurd (List.cons.inj h).1.symm hne'
  · rw [hy] at h
    exact absurd (List.cons.inj h).1 hne
  · exact List.cons.inj h

theorem doubleQuoted_append_inj {cs ds r s : List Char}
    (h : doubleQuotedBody cs ++ ['"'] ++ r = doubleQuotedBody ds ++ ['"'] ++ s) : cs = ds ∧ r = s := by
  rw [doubleQuotedBody_eq false, doubleQuotedBody_eq false] at h
  refine coded_append_inj (fun _ => doubleUnit) (P := fun _ _ => True)
    (fun _ _ _ _ _ => doubleUnit_append_inj) (fun _ c r s _ hend => ?_) trivial trivial h
  rcases doubleUnit_cases c with hc | ⟨hc, hne, -⟩ <;> rw [hc] at hend
  · obtain ⟨x, hx⟩ := escape_head c
    rw [hx] at hend
    cases hend
  · exact hne (List.cons.inj hend).1.symm

def twice (c : Char) : List Char := if c = '\'' then ['\''] else []

theorem singleQuotedBody_eq (indent : Nat) (fresh : Bool) (cs : List Char) :
    singleQuotedBody indent fresh cs =
      coded (lineUnit twice indent) (fun fresh => margin indent fresh ++ ['\'']) fresh cs := by
  induction cs generalizing fresh with
  | nil => rfl
  | cons c cs ih =>
      rw [singleQuotedBody, coded, lineUnit, ih, ih]
      cases isBreak c with
      | true => rfl
      | false => by_cases hquote : c = '\'' <;> simp [hquote, margin, twice]

theorem singleQuoted_append_inj {indent : Nat} {cs ds r s : List Char} (hr : r.head? ≠ some '\'')
    (hs : s.head? ≠ some '\'')
    (h : singleQuotedBody indent false cs ++ r = singleQuotedBody indent false ds ++ s) :
    cs = ds ∧ r = s := by
  rw [singleQuotedBody_eq, singleQuotedBody_eq] at h
  refine coded_append_inj (lineUnit twice indent) (P := fun _ r => r.head? ≠ some '\'')
    (fun _ _ _ _ _ => lineUnit_append_inj) (fun fresh c r s hr hend => ?_) hr hs h
  rw [lineUnit, List.append_assoc] at hend
  -- A quote within the text is followed by another one, the one at its end is not.
  cases hc : isBreak c <;>
    simp only [hc, if_true, Bool.false_eq_true, if_false, List.append_assoc] at hend
  · obtain ⟨rfl, htail⟩ := List.cons.inj (List.append_cancel_left hend)
    exact hr (congrArg List.head? (htail : r = '\'' :: s))
  · exact margin_ne_break hc rfl hend.symm

/-- What may follow a block of lines that begin at `indent`: nothing, or a line indented less. -/
def Below (indent : Nat) (r : List Char) : Prop :=
  r = [] ∨ ∃ i < indent, ∃ c t, r = spaces i ++ c :: t ∧ c ≠ ' ' ∧ isBreak c = false

theorem Below.mono {m n : Nat} {r : List Char} (h : Below m r) (hle : m ≤ n) : Below n r := by
  rcases h with rfl | ⟨i, hi, hline⟩
  · exact .inl rfl
  · exact .inr ⟨i, by omega, hline⟩

theorem Below.ne_break {indent : Nat} {r s : List Char} {c : Char} (h : Below indent r)
    (hc : isBreak c = true) : r ≠ c :: s := by
  rintro rfl
  rcases h with h | ⟨i, hi, d, t, h, hd, hbreak⟩
  · cases h
  · exact margin_ne_break hc hbreak (show c :: s = margin i true ++ d :: t from h)

theorem spaces_add (m n : Nat) : spaces (m + n) = spaces m ++ spaces n :=
  List.replicate_append_replicate.symm

theorem Below.ne_spaces {indent : Nat} {r s : List Char} {c : Char} (h : Below indent r) :
    r ≠ spaces indent ++ c :: s := by
  rintro rfl
  rcases h with h | ⟨i, hi, d, t, h, hd, -⟩
  · simp at h
  · obtain ⟨k, rfl⟩ : ∃ k, indent = i + (k + 1) := ⟨indent - i - 1, by omega⟩
    rw [spaces_add, List.append_assoc] at h
    exact hd (List.cons.inj (List.append_cancel_left h)).1.symm

theorem literalBody_eq (indent : Nat) (fresh : Bool) (cs : List Char) :
    literalBody indent fresh cs =
      coded (lineUnit (fun _ => []) indent) (fun _ => []) fresh cs := by
  induction cs generalizing fresh with
  | nil => rfl
  | cons c cs ih =>
      rw [literalBody, coded, lineUnit, ih, ih]
      cases isBreak c with
      | true => rfl
      | false => simp [margin]

/-- Lines that are all ended are followed by one that is indented less. -/
theorem literalBody_append_inj {indent : Nat} {cs ds r s : List Char}
    (hcs : freshAfter true cs = true) (hds : freshAfter true ds = true) (hr : Below indent r)
    (hs : Below indent s)
    (h : literalBody indent true cs ++ r = literalBody indent true ds ++ s) : cs = ds ∧ r = s := by
  rw [literalBody_eq, literalBody_eq] at h
  refine coded_append_inj (lineUnit (fun _ => []) indent)
    (P := fun fresh r => fresh = true ∧ Below indent r) (fun _ _ _ _ _ => lineUnit_append_inj)
    (fun fresh c r s hr hend => ?_) ⟨hcs, hr⟩ ⟨hds, hs⟩ h
  obtain ⟨rfl, hr⟩ := hr
  rw [lineUnit] at hend
  cases hc : isBreak c <;>
    simp only [hc, if_true, Bool.false_eq_true, if_false, List.append_assoc] at hend
  · exact hr.ne_spaces hend
  · exact hr.ne_break hc hend

def lineEnd (cs : List Char) : List Char := if cs.getLast?.any isBreak then [] else ['\n']

theorem endLine_eq (cs : List Char) : endLine cs = cs ++ lineEnd cs := by
  rw [endLine, lineEnd]
  split
  · exact (List.append_nil cs).symm
  · rfl

theorem freshAfter_append (fresh : Bool) (cs ds : List Char) :
    freshAfter fresh (cs ++ ds) = freshAfter (freshAfter fresh cs) ds := by
  induction cs generalizing fresh with
  | nil => rfl
  | cons c cs ih => exact ih _

theorem freshAfter_lineEnd (fresh : Bool) {cs : List Char} (h : cs ≠ []) :
    freshAfter fresh (cs ++ lineEnd cs) = true := by
  obtain ⟨before, c, rfl⟩ := (List.eq_nil_or_concat cs).resolve_left h
  rw [List.concat_eq_append, lineEnd, List.getLast?_append, List.getLast?_singleton, Option.some_or,
    Option.any_some]
  cases hc : isBreak c with
  | true => simp [freshAfter_append, freshAfter, hc]
  | false => simp [freshAfter_append, freshAfter, isBreak]

theorem literalBody_append_break (indent : Nat) (fresh : Bool) (cs : List Char) :
    literalBody indent fresh (cs ++ ['\n']) = literalBody indent fresh cs ++ ['\n'] := by
  induction cs generalizing fresh with
  | nil => rfl
  | cons c cs ih =>
      rw [List.cons_append, literalBody, literalBody, ih, ih]
      split <;> simp

theorem ne_break_of_mem_literalHints {cs : List Char} : ∀ c ∈ literalHints cs, c ≠ '\n' := by
  intro c hc
  rw [literalHints] at hc
  rcases List.mem_append.1 hc with hc | hc
  · split at hc <;> simp_all
  · repeat' split at hc
    all_goals simp_all

theorem mem_literalHints {cs : List Char} (h : cs ≠ []) :
    '-' ∈ literalHints cs ↔ lineEnd cs = ['\n'] := by
  obtain ⟨before, c, rfl⟩ := (List.eq_nil_or_concat cs).resolve_left h
  rw [List.concat_eq_append, lineEnd, List.getLast?_append, List.getLast?_singleton, Option.some_or,
    Option.any_some, literalHints, List.reverse_append]
  cases hc : isBreak c with
  | true =>
      simp [hc]
      repeat' split
      all_goals simp
  | false => simp [hc]

theorem literal_append_inj {indent : Nat} {cs ds r s : List Char} (hcs : cs ≠ []) (hds : ds ≠ [])
    (hr : Below indent r) (hs : Below indent s)
    (h : literalHints cs ++ '\n' :: literalBody indent true cs ++ (lineEnd cs ++ r) =
      literalHints ds ++ '\n' :: literalBody indent true ds ++ (lineEnd ds ++ s)) :
    cs = ds ∧ r = s := by
  -- With the break in `lineEnd` drawn in, both blocks consist of lines that are all ended.
  have hlines : ∀ cs r, literalBody indent true cs ++ (lineEnd cs ++ r) =
      literalBody indent true (cs ++ lineEnd cs) ++ r := by
    intro cs r
    rw [lineEnd]
    split
    · simp
    · rw [literalBody_append_break, List.append_assoc]
  have hsplit : ∀ cs r, (literalHints cs ++ '\n' :: r).takeWhile (· ≠ '\n') = literalHints cs := by
    intro cs r
    rw [List.takeWhile_append_of_pos (by simpa using ne_break_of_mem_literalHints)]
    simp
  rw [List.append_assoc, List.append_assoc, List.cons_append, List.cons_append, hlines, hlines] at h
  have hhints : literalHints cs = literalHints ds := by
    rw [← hsplit cs, h, hsplit ds]
  rw [hhints] at h
  obtain ⟨hbody, rfl⟩ := literalBody_append_inj (freshAfter_lineEnd true hcs)
    (freshAfter_lineEnd true hds) hr hs (List.cons.inj (List.append_cancel_left h)).2
  -- Whether that break is one of the text is told by the hints.
  have hend : lineEnd cs = lineEnd ds := by
    have hiff : lineEnd cs = ['\n'] ↔ lineEnd ds = ['\n'] := by
      rw [← mem_literalHints hcs, ← mem_literalHints hds, hhints]
    rw [lineEnd, lineEnd] at hiff ⊢
    split <;> split <;> simp_all
  rw [hend] at hbody
  exact ⟨List.append_cancel_right hbody, rfl⟩

end McpOperator.Yaml
