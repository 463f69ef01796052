import McpOperator.Json.Text
import McpOperator.Json.Token
import McpOperator.Proofs.Yaml.Word

namespace McpOperator.Json

/-- Trees that a JSON text can hold in full: whole numbers of 64 bits, in at most so many containers, one
within the other. -/
inductive Portable : Nat → Json → Prop
  | null {depth} : Portable depth .null
  | bool {depth} (b : Bool) : Portable depth (.bool b)
  | int {depth} {n : Int} (hlow : -2 ^ 63 ≤ n) (hhigh : n < 2 ^ 64) : Portable depth (.int n)
  | str {depth} (s : String) : Portable depth (.str s)
  | arr {depth} {items : List Json} (h : ∀ item ∈ items, Portable depth item) :
      Portable (depth + 1) (.arr items)
  | obj {depth} {members : Members} (h : ∀ m ∈ members, Portable depth m.2) :
      Portable (depth + 1) (.obj members)

theorem Portable.mono {depth depth' : Nat} {json : Json} (h : Portable depth json) (hle : depth ≤ depth') :
    Portable depth' json := by
  induction h generalizing depth' with
  | null => exact .null
  | bool b => exact .bool b
  | int hlow hhigh => exact .int hlow hhigh
  | str s => exact .str s
  | arr _ ih =>
      obtain ⟨depth', rfl⟩ := Nat.exists_eq_succ_of_ne_zero (Nat.ne_zero_of_lt hle)
      exact .arr fun item hitem => ih item hitem (Nat.le_of_succ_le_succ hle)
  | obj _ ih =>
      obtain ⟨depth', rfl⟩ := Nat.exists_eq_succ_of_ne_zero (Nat.ne_zero_of_lt hle)
      exact .obj fun m hm => ih m hm (Nat.le_of_succ_le_succ hle)

theorem escapeChar_cases (c : Char) :
    (escapeChar c = [c] ∧ c ≠ '"' ∧ c ≠ '\\' ∧ 32 ≤ c.toNat) ∨
      (∃ e, escapeChar c = ['\\', e] ∧ Token.simpleEscape? e = some c) ∨
      (escapeChar c = ['\\', 'u', '0', '0', hexDigit (c.toNat / 16), hexDigit (c.toNat % 16)] ∧
        c.toNat < 32) := by
  have hchar := c.ofNat_toNat
  rw [escapeChar]
  split
  · rename_i hc
    subst hc
    exact .inr (.inl ⟨_, rfl, rfl⟩)
  · rename_i hquote
    split
    · rename_i hc
      subst hc
      exact .inr (.inl ⟨_, rfl, rfl⟩)
    · rename_i hbackslash
      split
      · rename_i hlow
        exact .inl ⟨rfl, hquote, hbackslash, hlow⟩
      · rename_i hlow
        split
        case h_6 => exact .inr (.inr ⟨rfl, Nat.not_le.1 hlow⟩)
        all_goals
          rename_i hcode
          rw [hcode] at hchar
          rw [← hchar]
          exact .inr (.inl ⟨_, rfl, rfl⟩)

theorem hexValue?_hexDigit : ∀ n < 16, Token.hexValue? (hexDigit n) = some n := by decide

theorem unicodeEscape?_code {c : Char} (hlow : c.toNat < 32) (r : List Char) :
    Token.unicodeEscape? ('0' :: '0' :: hexDigit (c.toNat / 16) :: hexDigit (c.toNat % 16) :: r) =
      some (c, r) := by
  have hzero : Token.hexValue? '0' = some 0 := rfl
  have hunit : Token.unit16? ('0' :: '0' :: hexDigit (c.toNat / 16) :: hexDigit (c.toNat % 16) :: r) =
      some (c.toNat, r) := by
    simp only [Token.unit16?, hzero, hexValue?_hexDigit (c.toNat / 16) (by omega),
      hexValue?_hexDigit (c.toNat % 16) (by omega), Option.bind_eq_bind, Option.bind_some]
    have hcode : 4096 * 0 + 256 * 0 + 16 * (c.toNat / 16) + c.toNat % 16 = c.toNat := by omega
    rw [hcode]
  have hhigh : ¬ (0xD800 ≤ c.toNat ∧ c.toNat < 0xDC00) := by omega
  have hlone : ¬ (0xDC00 ≤ c.toNat ∧ c.toNat < 0xE000) := by omega
  simp only [Token.unicodeEscape?, hunit, Option.bind_eq_bind, Option.bind_some, if_neg hhigh, if_neg hlone,
    Char.ofNat_toNat]

theorem text?_escapeChar (c : Char) (n : Nat) (r : List Char) :
    Token.text? (n + 1) (escapeChar c ++ r) = (Token.text? n r).map fun found => (c :: found.1, found.2) := by
  rcases escapeChar_cases c with ⟨hc, hquote, hbackslash, hlow⟩ | ⟨e, hc, he⟩ | ⟨hc, hlow⟩
  · rw [hc, List.singleton_append, Token.text?]
    · rw [if_neg (Nat.not_lt.2 hlow)]
      exact Option.map_eq_bind.symm
    · exact hquote
    · rintro _ rfl
      exact absurd rfl hbackslash
    · rintro _ _ rfl
      exact absurd rfl hbackslash
  · have hu : e ≠ 'u' := by
      rintro rfl
      cases he
    rw [hc, List.cons_append, List.singleton_append, Token.text?, he]
    · exact Option.map_eq_bind.symm
    · exact hu
  · rw [hc]
    simp only [List.cons_append, List.nil_append]
    rw [Token.text?, unicodeEscape?_code hlow, Option.bind_eq_bind, Option.bind_some]
    exact Option.map_eq_bind.symm

theorem text?_escaped (cs r : List Char) {n : Nat} (hn : cs.length < n) :
    Token.text? n (cs.flatMap escapeChar ++ '"' :: r) = some (cs, r) := by
  obtain ⟨n, rfl⟩ := Nat.exists_eq_succ_of_ne_zero (Nat.ne_zero_of_lt hn)
  induction cs generalizing n with
  | nil => rw [List.flatMap_nil, List.nil_append, Token.text?]
  | cons c cs ih =>
      obtain ⟨n, rfl⟩ := Nat.exists_eq_succ_of_ne_zero
        (Nat.ne_zero_of_lt (Nat.lt_of_succ_lt_succ hn))
      rw [List.flatMap_cons, List.append_assoc, text?_escapeChar, ih n (Nat.lt_of_succ_lt_succ hn),
        Option.map_some]

theorem length_le_escaped (cs : List Char) : cs.length ≤ (cs.flatMap escapeChar).length := by
  induction cs with
  | nil => exact Nat.le_refl 0
  | cons c cs ih =>
      have hc : 1 ≤ (escapeChar c).length := by
        rcases escapeChar_cases c with ⟨hc, -⟩ | ⟨e, hc, -⟩ | ⟨hc, -⟩ <;> rw [hc] <;> simp
      rw [List.flatMap_cons, List.length_append, List.length_cons]
      omega

/-- What may follow on a value: nothing, the next one, or the end of what holds it. -/
def Follows (r : List Char) : Prop := ∀ c ∈ r.head?, c = ',' ∨ c = ']' ∨ c = '}'

theorem Follows.stops {r : List Char} (hr : Follows r) :
    r.takeWhile Char.isDigit = [] ∧ r.dropWhile Char.isDigit = r ∧
      Token.fraction? r = some (none, r) ∧ Token.power? r = some (none, r) := by
  cases r with
  | nil => exact ⟨rfl, rfl, rfl, rfl⟩
  | cons c rest => rcases hr c rfl with rfl | rfl | rfl <;> exact ⟨rfl, rfl, rfl, rfl⟩

theorem unsigned?_toDigits (negative : Bool) (n : Nat) {r : List Char} (hr : Follows r) :
    Token.unsigned? negative (Nat.toDigits 10 n ++ r) =
      (Token.numberValue? negative (Nat.toDigits 10 n) [] 0 true).map (·, r) := by
  have hall : ∀ c ∈ Nat.toDigits 10 n, c.isDigit = true :=
    fun c hc => Nat.isDigit_of_mem_toDigits (by decide) (by decide) hc
  obtain ⟨htake, hdrop, hfraction, hpower⟩ := hr.stops
  have hwhole : (Nat.toDigits 10 n ++ r).takeWhile Char.isDigit = Nat.toDigits 10 n := by
    rw [List.takeWhile_append_of_pos hall, htake, List.append_nil]
  have hrest : (Nat.toDigits 10 n ++ r).dropWhile Char.isDigit = r := by
    rw [List.dropWhile_append_of_pos hall, hdrop]
  have hlead : ¬ ((Nat.toDigits 10 n).isEmpty = true ∨
      1 < (Nat.toDigits 10 n).length ∧ (Nat.toDigits 10 n).head? = some '0') := by
    obtain ⟨c, rest, hds, -, hzero⟩ := Yaml.toDigits_eq_cons n
    rw [hds]
    rintro (hempty | ⟨hlength, hhead⟩)
    · cases hempty
    · rw [hzero (Option.some.inj hhead)] at hlength
      exact absurd hlength (Nat.lt_irrefl 1)
  simp only [Token.unsigned?, hwhole, hrest, if_neg hlead, hfraction, hpower, Option.bind_eq_bind, Option.bind_some]
  exact Option.map_eq_bind.symm

theorem natOfDigits_toDigits (n : Nat) : Token.natOfDigits (Nat.toDigits 10 n) = n :=
  Nat.ofDigitChars_ten_toDigits

theorem number?_toString {n : Int} (hlow : -2 ^ 63 ≤ n) (hhigh : n < 2 ^ 64) {r : List Char}
    (hr : Follows r) : Token.number? ((toString n).toList ++ r) = some (.int n, r) := by
  rw [Yaml.toList_toString]
  split
  · rename_i hn
    have hvalue : Token.numberValue? false (Nat.toDigits 10 n.toNat) [] 0 true = some (.int n) := by
      have hrange : n.toNat < 0x10000000000000000 := by omega
      rw [Token.numberValue?, natOfDigits_toDigits, if_pos ⟨rfl, rfl, hrange⟩, Int.toNat_of_nonneg hn]
    obtain ⟨c, rest, hds, hc, -⟩ := Yaml.toDigits_eq_cons n.toNat
    have hsign : Token.number? (Nat.toDigits 10 n.toNat ++ r) =
        Token.unsigned? false (Nat.toDigits 10 n.toNat ++ r) := by
      rw [hds, List.cons_append, Token.number?]
      intro _ heq
      rw [(List.cons.inj heq).1] at hc
      cases hc
    rw [hsign, unsigned?_toDigits false _ hr, hvalue, Option.map_some]
  · rename_i hn
    have hvalue : Token.numberValue? true (Nat.toDigits 10 (-n).toNat) [] 0 true = some (.int n) := by
      have hrange : 0 < (-n).toNat ∧ (-n).toNat ≤ 0x8000000000000000 := by omega
      have hself : -((-n).toNat : Int) = n := by omega
      rw [Token.numberValue?, natOfDigits_toDigits, if_neg (by simp), if_pos ⟨rfl, rfl, hrange⟩, hself]
    rw [List.cons_append, Token.number?, unsigned?_toDigits true _ hr, hvalue, Option.map_some]

/-- The words that a text is made of. Each one takes a character at least. -/
def Scans (cs : List Char) (ts : List Token) : Prop := ∀ n, cs.length ≤ n → Token.scan? n cs = some ts

section

variable {r : List Char} {ts : List Token}

theorem scans_nil : Scans [] [] := fun _ _ => by rw [Token.scan?]

theorem scans_word {c : Char} {t : Token} (word : List Char)
    (hword : ∀ n cs, Token.scan? (n + 1) (c :: word ++ cs) = (Token.scan? n cs).map (t :: ·))
    (h : Scans r ts) : Scans (c :: word ++ r) (t :: ts) := by
  intro n hn
  obtain ⟨n, rfl⟩ := Nat.exists_eq_succ_of_ne_zero (Nat.ne_zero_of_lt hn)
  have hlength : r.length ≤ n := by
    rw [List.length_append, List.length_cons] at hn
    omega
  rw [hword, h n hlength, Option.map_some]

theorem scans_mark {c : Char} {t : Token}
    (hmark : ∀ n cs, Token.scan? (n + 1) (c :: cs) = (Token.scan? n cs).map (t :: ·)) (h : Scans r ts) :
    Scans (c :: r) (t :: ts) :=
  scans_word [] hmark h

theorem scans_number {n : Int} (hlow : -2 ^ 63 ≤ n) (hhigh : n < 2 ^ 64) (hr : Follows r) (h : Scans r ts) :
    Scans ((toString n).toList ++ r) (.atom (.int n) :: ts) := by
  have hnumber := number?_toString hlow hhigh hr
  obtain ⟨c, cs, hcons, hc⟩ : ∃ c cs, (toString n).toList = c :: cs ∧ (c.isDigit = true ∨ c = '-') := by
    rw [Yaml.toList_toString]
    split
    · obtain ⟨c, cs, hds, hc, -⟩ := Yaml.toDigits_eq_cons n.toNat
      exact ⟨c, cs, hds, .inl hc⟩
    · exact ⟨_, _, rfl, .inr rfl⟩
  rw [hcons, List.cons_append] at hnumber ⊢
  intro k hk
  obtain ⟨k, rfl⟩ := Nat.exists_eq_succ_of_ne_zero (Nat.ne_zero_of_lt hk)
  have hlength : r.length ≤ k := by
    rw [List.length_cons, List.length_append] at hk
    omega
  rw [Token.scan?.eq_def]
  dsimp only
  split
  case h_15 =>
    rw [hnumber, Option.bind_eq_bind, Option.bind_some, h k hlength]
    rfl
  all_goals rcases hc with hc | hc <;> cases hc

theorem scans_quoted (s : String) (h : Scans r ts) : Scans (quoted s ++ r) (.atom (.str s) :: ts) := by
  have hquoted : quoted s ++ r = '"' :: (s.toList.flatMap escapeChar ++ '"' :: r) := by
    rw [quoted, List.cons_append, List.cons_append, List.append_assoc, List.singleton_append]
  intro n hn
  rw [hquoted] at hn ⊢
  obtain ⟨n, rfl⟩ := Nat.exists_eq_succ_of_ne_zero (Nat.ne_zero_of_lt hn)
  have hescaped := length_le_escaped s.toList
  have hlength : (s.toList.flatMap escapeChar ++ '"' :: r).length =
      (s.toList.flatMap escapeChar).length + (r.length + 1) := List.length_append
  have hn : (s.toList.flatMap escapeChar ++ '"' :: r).length ≤ n := Nat.le_of_succ_le_succ hn
  have htext := text?_escaped s.toList r
    (show s.toList.length < (s.toList.flatMap escapeChar ++ '"' :: r).length + 1 by omega)
  have hscan : ∀ cs, Token.scan? (n + 1) ('"' :: cs) = (Token.text? (cs.length + 1) cs).bind fun found =>
      (Token.scan? n found.2).bind fun ts => some (.atom (.str (String.ofList found.1)) :: ts) := fun _ => rfl
  rw [hscan, htext, Option.bind_some, h n (by omega), Option.bind_some, String.ofList_toList]

theorem follows_mark {c : Char} (h : c = ',' ∨ c = ']' ∨ c = '}') (r : List Char) : Follows (c :: r) := by
  rintro _ ⟨⟩
  exact h

end

mutual

def words : Json → List Token
  | .arr items => .openBracket :: itemWords items ++ [.closeBracket]
  | .obj members => .openBrace :: memberWords members ++ [.closeBrace]
  | .null => [.atom .null]
  | .bool b => [.atom (.bool b)]
  | .int n => [.atom (.int n)]
  | .float d => [.atom (.float d)]
  | .str s => [.atom (.str s)]

def itemWords : List Json → List Token
  | [] => []
  | [item] => words item
  | item :: rest => words item ++ .comma :: itemWords rest

def memberWords : Members → List Token
  | [] => []
  | [(key, value)] => .atom (.str key) :: .colon :: words value
  | (key, value) :: rest => .atom (.str key) :: .colon :: words value ++ .comma :: memberWords rest

end

mutual

theorem scans_chars : (json : Json) → {depth : Nat} → json.Portable depth → {r : List Char} →
    {ts : List Token} → Follows r → Scans r ts → Scans (json.chars ++ r) (json.words ++ ts)
  | .null, _, _, _, _, _, h => scans_word ['u', 'l', 'l'] (fun _ _ => rfl) h
  | .bool true, _, _, _, _, _, h => scans_word ['r', 'u', 'e'] (fun _ _ => rfl) h
  | .bool false, _, _, _, _, _, h => scans_word ['a', 'l', 's', 'e'] (fun _ _ => rfl) h
  | .int n, _, hjson, r, ts, hr, h => by
      cases hjson with
      | int hlow hhigh =>
          rw [chars, words]
          exact scans_number hlow hhigh hr h
  | .float _, _, hjson, _, _, _, _ => nomatch hjson
  | .str s, _, _, r, ts, _, h => by
      rw [chars, words]
      exact scans_quoted s h
  | .arr items, _, hjson, r, ts, _, h => by
      cases hjson with
      | arr hitems =>
          simp only [chars, words, List.cons_append, List.append_assoc, List.nil_append]
          exact scans_mark (fun _ _ => rfl) (scans_itemChars items hitems (follows_mark (by simp) r)
            (scans_mark (fun _ _ => rfl) h))
  | .obj members, _, hjson, r, ts, _, h => by
      cases hjson with
      | obj hmembers =>
          simp only [chars, words, List.cons_append, List.append_assoc, List.nil_append]
          exact scans_mark (fun _ _ => rfl) (scans_memberChars members hmembers (follows_mark (by simp) r)
            (scans_mark (fun _ _ => rfl) h))

theorem scans_itemChars : (items : List Json) → {depth : Nat} → (∀ item ∈ items, item.Portable depth) →
    {r : List Char} → {ts : List Token} → Follows r → Scans r ts →
    Scans (itemChars items ++ r) (itemWords items ++ ts)
  | [], _, _, _, _, _, h => h
  | [item], _, hitems, r, ts, hr, h => scans_chars item (hitems item List.mem_cons_self) hr h
  | item :: next :: rest, _, hitems, r, ts, hr, h => by
      simp only [itemChars, itemWords, List.cons_append, List.append_assoc]
      rw [List.forall_mem_cons] at hitems
      exact scans_chars item hitems.1 (follows_mark (by simp) _)
        (scans_mark (fun _ _ => rfl) (scans_itemChars (next :: rest) hitems.2 hr h))

theorem scans_memberChars : (members : Members) → {depth : Nat} → (∀ m ∈ members, m.2.Portable depth) →
    {r : List Char} → {ts : List Token} → Follows r → Scans r ts →
    Scans (memberChars members ++ r) (memberWords members ++ ts)
  | [], _, _, _, _, _, h => h
  | [(key, value)], _, hmembers, r, ts, hr, h => by
      simp only [memberChars, memberWords, List.cons_append, List.append_assoc]
      exact scans_quoted key (scans_mark (fun _ _ => rfl)
        (scans_chars value (hmembers (key, value) List.mem_cons_self) hr h))
  | (key, value) :: next :: rest, _, hmembers, r, ts, hr, h => by
      simp only [memberChars, memberWords, List.cons_append, List.append_assoc]
      rw [List.forall_mem_cons] at hmembers
      exact scans_quoted key (scans_mark (fun _ _ => rfl)
        (scans_chars value hmembers.1 (follows_mark (by simp) _)
          (scans_mark (fun _ _ => rfl) (scans_memberChars (next :: rest) hmembers.2 hr h))))

end

theorem ofText?_words {json : Json} {depth : Nat} (h : json.Portable depth) :
    Token.ofText? json.compact = some json.words := by
  have hscans := scans_chars json h (r := []) (by simp [Follows]) scans_nil
  rw [List.append_nil, List.append_nil] at hscans
  rw [Token.ofText?, compact, String.toList_ofList]
  exact hscans _ (Nat.le_succ _)

end McpOperator.Json
