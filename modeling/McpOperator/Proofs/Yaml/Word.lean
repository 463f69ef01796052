import McpOperator.Proofs.Yaml.Scalar
import Mathlib.Algebra.Group.Int.Defs

namespace McpOperator

/-- Trees whose numbers are whole and read back from their digits. -/
inductive Json.Exact : Json → Prop
  | null : Exact .null
  | bool (b : Bool) : Exact (.bool b)
  | int {n : Int} (hlow : -2 ^ 127 ≤ n) (hhigh : n < 2 ^ 128) : Exact (.int n)
  | str (s : String) : Exact (.str s)
  | arr {items : List Json} (h : ∀ item ∈ items, Exact item) : Exact (.arr items)
  | obj {members : Members} (h : ∀ m ∈ members, Exact m.2) : Exact (.obj members)

theorem Json.Exact.of_arr {items : List Json} (h : (Json.arr items).Exact) :
    ∀ item ∈ items, item.Exact := by
  cases h
  assumption

theorem Json.Exact.of_obj {members : Members} (h : (Json.obj members).Exact) :
    ∀ m ∈ members, m.2.Exact := by
  cases h
  assumption

namespace Yaml

theorem toDigits_eq_cons (n : Nat) : ∃ c rest, Nat.toDigits 10 n = c :: rest ∧ c.isDigit = true ∧
    (c = '0' → rest = []) := by
  induction n using Nat.strongRecOn with
  | ind n ih =>
      rw [Nat.toDigits_eq_if (by decide : 1 < 10)]
      split
      · rename_i hn
        have hdigit : ∀ d < 10, (Nat.digitChar d).isDigit = true := by decide
        exact ⟨_, _, rfl, hdigit n hn, fun _ => rfl⟩
      · rename_i hn
        obtain ⟨c, rest, hds, hc, hzero⟩ := ih (n / 10) (by omega)
        refine ⟨c, rest ++ [Nat.digitChar (n % 10)], by rw [hds, List.cons_append], hc, fun h => ?_⟩
        have hvalue := digits?_toDigits (n / 10)
        rw [hds, h, hzero h] at hvalue
        have : 0 = n / 10 := Option.some.inj hvalue
        omega

/-- The digits of a number, which no sign and no mark of another base stands in front of. -/
structure Numeral (cs : List Char) (n : Nat) : Prop where
  value : digits? 10 cs = some n
  base : based? cs = none
  positive : isZeroLed cs = false
  negative : isZeroLed ('-' :: cs) = false
  unsigned : ∀ c ∈ ['+', '-'], ∀ rest, cs ≠ c :: rest

theorem numeral_toDigits (n : Nat) : Numeral (Nat.toDigits 10 n) n := by
  have hvalue := digits?_toDigits n
  obtain ⟨c, rest, hds, hc, hzero⟩ := toDigits_eq_cons n
  rw [hds] at hvalue ⊢
  have hsign : c ≠ '+' ∧ c ≠ '-' := by
    constructor <;> rintro rfl <;> cases hc
  by_cases h : c = '0'
  · obtain rfl := hzero h
    subst h
    exact ⟨hvalue, rfl, rfl, rfl, by simp⟩
  · exact ⟨hvalue, by simp [based?, h], by simp [isZeroLed, h, hsign],
      by simp [isZeroLed, h], by simp [hsign]⟩

theorem toList_toString (n : Int) : (toString n).toList =
    if 0 ≤ n then Nat.toDigits 10 n.toNat else '-' :: Nat.toDigits 10 (-n).toNat := by
  rw [Int.toString_eq_repr, Int.repr_eq_if]
  split
  · exact Nat.toList_repr
  · rw [String.toList_append, Nat.toList_repr]
    rfl

theorem nat?_eq {s : String} {n : Nat} (h : Numeral s.toList n) : nat? s = some n := by
  rw [nat?, h.positive]
  split
  · rename_i heq
    cases heq
  · split
    · rename_i rest heq
      exact absurd heq (h.unsigned '+' (by simp) rest)
    · simp only [h.base, h.value, Option.none_or]

theorem int?_toString {n : Int} (hlow : -2 ^ 127 ≤ n) (hhigh : n < 2 ^ 128) :
    int? (toString n) = some n := by
  have hlist := toList_toString n
  rw [int?]
  by_cases hn : 0 ≤ n
  · rw [if_pos hn] at hlist
    have hnum : Numeral (toString n).toList n.toNat := hlist ▸ numeral_toDigits n.toNat
    have hlt : n.toNat < Nat.pow 2 128 := by
      change n.toNat < 2 ^ 128
      omega
    split
    · rename_i rest heq
      exact absurd heq (hnum.unsigned '-' (by simp) rest)
    · simp only [nat?_eq hnum, if_pos hlt, Int.toNat_of_nonneg hn]
  · rw [if_neg hn] at hlist
    have hnum := numeral_toDigits (-n).toNat
    have hle : (-n).toNat ≤ Nat.pow 2 127 := by
      change (-n).toNat ≤ 2 ^ 127
      omega
    rw [hlist]
    simp only [hnum.negative, hnum.base, hnum.value, Option.none_or]
    rw [if_neg Bool.false_ne_true, if_pos hle]
    exact congrArg some (by omega)

theorem isTame_of_isDigit {c : Char} (h : c.isDigit = true) : isTame c = true := by
  have hcode := Char.isDigit_iff_toNat.1 h
  have h0 : '0'.toNat = 48 := rfl
  have h9 : '9'.toNat = 57 := rfl
  have hne : ∀ d : Char, d.isDigit = false → c ≠ d := by
    rintro d hd rfl
    rw [h] at hd
    cases hd
  have hbreak : isBreak c = false := by
    simp only [isBreak, Bool.or_eq_false_iff, decide_eq_false_iff_not]
    exact ⟨⟨⟨⟨hne _ rfl, hne _ rfl⟩, by omega⟩, by omega⟩, by omega⟩
  simp [isTame, hbreak, hne ' ' rfl, hne '\'' rfl, hne '"' rfl, hne '|' rfl, hne ':' rfl]

theorem isTame_of_mem_toString {n : Int} : ∀ c ∈ (toString n).toList, isTame c = true := by
  have hdigits : ∀ m, ∀ c ∈ Nat.toDigits 10 m, isTame c = true := fun m c hc =>
    isTame_of_isDigit (Nat.isDigit_of_mem_toDigits (by decide) (by decide) hc)
  intro c hc
  rw [toList_toString] at hc
  split at hc
  · exact hdigits _ c hc
  · rcases List.mem_cons.1 hc with rfl | hc
    · rfl
    · exact hdigits _ c hc

theorem toList_toString_ne_nil (n : Int) : (toString n).toList ≠ [] := by
  rw [toList_toString]
  split
  · exact Nat.toDigits_ne_nil
  · exact List.cons_ne_nil _ _

def leaf : Json → Option (Style × List Char)
  | .null => some (.plain, "null".toList)
  | .bool true => some (.plain, "true".toList)
  | .bool false => some (.plain, "false".toList)
  | .int n => some (.plain, (toString n).toList)
  | .str s => some (style false s.toList, s.toList)
  | .arr [] => some (.plain, "[]".toList)
  | .obj [] => some (.plain, "\x7b\x7d".toList)
  | .float _ | .arr (_ :: _) | .obj (_ :: _) => none

def word (s : String) : Json :=
  match int? s with
  | some n => .int n
  | none => match bool? s with
      | some b => .bool b
      | none =>
          if isNull s then .null
          else if s = "[]" then .arr []
          else if s = "\x7b\x7d" then .obj []
          else .str s

def ofLeaf (style : Style) (cs : List Char) : Json :=
  if style = .plain then word (String.ofList cs) else .str (String.ofList cs)

theorem fits_leaf {json : Json} {style : Style} {cs : List Char} (h : leaf json = some (style, cs)) :
    Fits style cs := by
  unfold leaf at h
  split at h <;> cases h
  case h_4 => exact Bare.of_tame (toList_toString_ne_nil _) (List.all_eq_true.2 isTame_of_mem_toString)
  case h_5 => exact fits_style false _
  all_goals exact Bare.of_tame (List.cons_ne_nil _ _) rfl

theorem word_of_plain {s : String} (h : style false s.toList = .plain) : word s = .str s := by
  rw [style] at h
  split at h
  · split at h <;> cases h
  · split at h
    · rename_i hplain
      simp only [String.ofList_toList, Bool.and_eq_true, Bool.not_eq_true', readsAsOther, plainAllowed,
        Bool.or_eq_false_iff, Option.isSome_eq_false_iff, Option.isNone_iff_eq_none] at hplain
      obtain ⟨⟨⟨⟨⟨⟨-, hnull⟩, hbool⟩, hint⟩, -⟩, -⟩, ⟨-, hstart⟩, -⟩ := hplain
      have hne : s ≠ "[]" ∧ s ≠ "\x7b\x7d" := by
        constructor <;> rintro rfl <;> cases hstart
      simp [word, hint, hbool, hnull, hne]
    · split at h <;> cases h

theorem ofLeaf_leaf {json : Json} {style : Style} {cs : List Char} (hjson : json.Exact)
    (h : leaf json = some (style, cs)) : ofLeaf style cs = json := by
  unfold leaf at h
  split at h <;> cases h
  case h_4 n =>
    obtain ⟨⟩ | ⟨⟩ | ⟨hlow, hhigh⟩ := hjson
    rw [ofLeaf, if_pos rfl, String.ofList_toList, word, int?_toString hlow hhigh]
  case h_5 s =>
    rw [ofLeaf, String.ofList_toList]
    split
    · rename_i hstyle
      exact word_of_plain hstyle
    · rfl
  all_goals rfl

end Yaml
end McpOperator
