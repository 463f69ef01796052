import McpOperator.Objects.KeyValue
import McpOperator.Proofs.Codec.Basic

namespace McpOperator

namespace Base64

theorem value?_symbol {n : Nat} (h : n < 64) : value? (symbol n) = some n := by
  decide +revert

theorem symbol_ne_pad {n : Nat} (h : n < 64) : symbol n ≠ pad := by
  decide +revert

theorem symbol_lt (n : Nat) : (symbol n).toNat < 128 := by
  rw [symbol]
  split
  · simp; omega
  · split
    · simp; omega
    · split
      · simp; omega
      · split <;> decide

@[simp] theorem valueAt_symbol (offset : Nat) {n : Nat} (h : n < 64) :
    valueAt offset (symbol n) = .ok n := by
  simp [valueAt, value?_symbol h]

theorem lt_of_mem_encode {bytes : List UInt8} {b : UInt8} (h : b ∈ encode bytes) : b.toNat < 128 := by
  have hpad : pad.toNat < 128 := by decide
  induction bytes using encode.induct with
  | case1 => cases h
  | case2 a =>
      simp only [encode, List.mem_cons, List.not_mem_nil, or_false] at h
      rcases h with rfl | rfl | rfl | rfl <;> first | exact symbol_lt _ | exact hpad
  | case3 a c =>
      simp only [encode, List.mem_cons, List.not_mem_nil, or_false] at h
      rcases h with rfl | rfl | rfl | rfl <;> first | exact symbol_lt _ | exact hpad
  | case4 a c d rest ih =>
      simp only [encode, List.mem_cons] at h
      rcases h with rfl | rfl | rfl | rfl | h
      · exact symbol_lt _
      · exact symbol_lt _
      · exact symbol_lt _
      · exact symbol_lt _
      · exact ih h

theorem length_encode (bytes : List UInt8) : (encode bytes).length % 4 = 0 := by
  induction bytes using encode.induct with
  | case1 => rfl
  | case2 | case3 => simp [encode]
  | case4 a b c rest ih =>
      simp only [encode, List.length_cons]
      omega

theorem encode_eq_nil {bytes : List UInt8} : encode bytes = [] ↔ bytes = [] := by
  cases bytes using encode.induct with
  | case1 | case2 | case3 | case4 => simp [encode]

theorem ofNat_eq {n : Nat} {b : UInt8} (h : n = b.toNat) : UInt8.ofNat n = b := by
  rw [h, UInt8.ofNat_toNat]

theorem groups_cons {offset : Nat} {a b c d : Nat} (ha : a < 64) (hb : b < 64) (hc : c < 64)
    (hd : d < 64) {rest more : List UInt8} (hrest : rest ≠ []) (h : groups (offset + 4) rest = .ok more) :
    groups offset (symbol a :: symbol b :: symbol c :: symbol d :: rest) =
      .ok (UInt8.ofNat (a * 4 + b / 16) :: UInt8.ofNat (b % 16 * 16 + c / 4) ::
        UInt8.ofNat (c % 4 * 64 + d) :: more) := by
  cases rest with
  | nil => exact absurd rfl hrest
  | cons e rest => simp [groups, ha, hb, hc, hd, h, bind, Except.bind]

theorem lastGroup_four {offset : Nat} {a b c d : Nat} (ha : a < 64) (hb : b < 64) (hc : c < 64)
    (hd : d < 64) : lastGroup offset [symbol a, symbol b, symbol c, symbol d] =
      .ok [UInt8.ofNat (a * 4 + b / 16), UInt8.ofNat (b % 16 * 16 + c / 4),
        UInt8.ofNat (c % 4 * 64 + d)] := by
  simp [lastGroup, valuesFrom, ha, hb, hc, hd, symbol_ne_pad, bind, Except.bind]

theorem lastGroup_three {offset : Nat} {a b c : Nat} (ha : a < 64) (hb : b < 64) (hc : c < 64)
    (hzero : c % 4 = 0) : lastGroup offset [symbol a, symbol b, symbol c, pad] =
      .ok [UInt8.ofNat (a * 4 + b / 16), UInt8.ofNat (b % 16 * 16 + c / 4)] := by
  simp [lastGroup, valuesFrom, ha, hb, hc, hzero, symbol_ne_pad, bind, Except.bind]

theorem lastGroup_two {offset : Nat} {a b : Nat} (ha : a < 64) (hb : b < 64) (hzero : b % 16 = 0) :
    lastGroup offset [symbol a, symbol b, pad, pad] = .ok [UInt8.ofNat (a * 4 + b / 16)] := by
  simp [lastGroup, valuesFrom, ha, hb, hzero, symbol_ne_pad, bind, Except.bind]

theorem groups_encode {bytes : List UInt8} (h : bytes ≠ []) (offset : Nat) :
    groups offset (encode bytes) = .ok bytes := by
  induction bytes using encode.induct generalizing offset with
  | case1 => exact absurd rfl h
  | case2 a =>
      have ha := a.toNat_lt
      rw [encode, groups, lastGroup_two (by omega) (by omega) (by omega)]
      · rw [ofNat_eq (b := a) (by omega)]
      · simp
  | case3 a b =>
      have ha := a.toNat_lt
      have hb := b.toNat_lt
      rw [encode, groups, lastGroup_three (by omega) (by omega) (by omega) (by omega)]
      · rw [ofNat_eq (b := a) (by omega), ofNat_eq (b := b) (by omega)]
      · simp
  | case4 a b c rest ih =>
      have ha := a.toNat_lt
      have hb := b.toNat_lt
      have hc := c.toNat_lt
      have h1 : a.toNat / 4 < 64 := by omega
      have h2 : a.toNat % 4 * 16 + b.toNat / 16 < 64 := by omega
      have h3 : b.toNat % 16 * 4 + c.toNat / 64 < 64 := by omega
      have h4 : c.toNat % 64 < 64 := by omega
      rw [encode]
      by_cases hrest : rest = []
      · subst hrest
        rw [encode, groups, lastGroup_four h1 h2 h3 h4]
        · rw [ofNat_eq (b := a) (by omega), ofNat_eq (b := b) (by omega), ofNat_eq (b := c) (by omega)]
        · simp
      · rw [groups_cons h1 h2 h3 h4 (mt encode_eq_nil.1 hrest) (ih hrest _)]
        rw [ofNat_eq (b := a) (by omega), ofNat_eq (b := b) (by omega), ofNat_eq (b := c) (by omega)]

theorem decode_encode (bytes : List UInt8) : decode (encode bytes) = .ok bytes := by
  have hlength := length_encode bytes
  rw [decode]
  split
  · rename_i hlast
    rw [encode_eq_nil.1 (List.getLast?_eq_none_iff.1 hlast)]
  · rename_i last hlast
    have hne : bytes ≠ [] := by
      rintro rfl
      cases hlast
    rw [if_neg (by omega), groups_encode hne]

theorem utf8Encode_ascii {bytes : List UInt8} (h : ∀ b ∈ bytes, b.toNat < 128) :
    (bytes.map fun b => Char.ofNat b.toNat).flatMap String.utf8EncodeChar = bytes := by
  induction bytes with
  | nil => rfl
  | cons b rest ih =>
      rw [List.forall_mem_cons] at h
      have hchar : (Char.ofNat b.toNat).val = b.toUInt32 := by
        rw [Char.ofNat, dif_pos (.inl (by omega))]
        rfl
      have hsize : (Char.ofNat b.toNat).utf8Size = 1 := by
        rw [Char.utf8Size_eq_one_iff, hchar, UInt32.le_iff_toNat_le]
        simp
        omega
      rw [List.map_cons, List.flatMap_cons, String.utf8EncodeChar_eq_singleton hsize, hchar, ih h.2]
      simp

theorem toList_loop (bytes : ByteArray) (i : Nat) (before : List UInt8) :
    ByteArray.toList.loop bytes i before = before.reverse ++ bytes.data.toList.drop i := by
  fun_induction ByteArray.toList.loop bytes i before with
  | case1 i before h ih =>
      have hi : i < bytes.data.toList.length := h
      have hget : bytes.get! i = bytes.data.toList[i] := getElem!_pos bytes.data i h
      rw [ih, List.drop_eq_getElem_cons hi, hget]
      simp
  | case2 i before h =>
      have hi : bytes.data.toList.length ≤ i := Nat.not_lt.1 h
      rw [List.drop_eq_nil_of_le hi, List.append_nil]

theorem toList_toByteArray (bytes : List UInt8) : bytes.toByteArray.toList = bytes := by
  rw [ByteArray.toList, toList_loop]
  simp

theorem toUTF8_ascii {bytes : List UInt8} (h : ∀ b ∈ bytes, b.toNat < 128) :
    (String.ofList (bytes.map fun b => Char.ofNat b.toNat)).toUTF8.toList = bytes := by
  rw [String.toUTF8_eq_toByteArray, String.toByteArray_ofList, List.utf8Encode, utf8Encode_ascii h,
    toList_toByteArray]

end Base64

instance : Codec DataMap.encodeBytes DataMap.decodeBytes id where
  encode_ne_null _ := by simp [DataMap.encodeBytes]
  distinct _ := .str _
  decode_encode bytes := by
    simp only [DataMap.encodeBytes, DataMap.decodeBytes]
    rw [Base64.toUTF8_ascii fun b => Base64.lt_of_mem_encode, Base64.decode_encode]
    rfl
  encode_kept _ := rfl

instance : Codec DataMap.encode DataMap.decode id :=
  inferInstanceAs (Codec (Json.ofMap DataMap.encodeBytes) (Decode.map DataMap.decodeBytes) id)

end McpOperator
