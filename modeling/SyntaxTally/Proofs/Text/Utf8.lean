import SyntaxTally.Text.Utf8

/-!
# Bytes that are text

`decodeUtf8` is strict: it gives a text for bytes exactly if they are its encoding (`decodeUtf8_eq_ok_iff`). So the
text of bytes that are put together is made of the texts of their parts.
-/
namespace SyntaxTally.Text

variable {value seen more code fuel position v : Nat} {least greatest byte : UInt8}
  {tail rest bytes after : List UInt8} {c : Char} {text others : List Char}

/-- The first character of the bytes, and the bytes behind it. -/
def firstChar? : List UInt8 → Option (Char × List UInt8)
  | [] => none
  | byte :: tail =>
    match leadByte byte with
    | none => none
    | some (value, least, greatest, more) =>
      match followBytes value least greatest 0 more tail with
      | .error _ => none
      | .ok (code, rest) => some (Char.ofNat code, rest)

theorem firstChar?_eq_some : firstChar? (byte :: tail) = some (c, rest) ↔
    ∃ value least greatest more code, leadByte byte = some (value, least, greatest, more) ∧
      followBytes value least greatest 0 more tail = .ok (code, rest) ∧ Char.ofNat code = c := by
  rw [firstChar?]
  constructor
  · intro first
    split at first
    · cases first
    · rename_i lead
      split at first
      · cases first
      · rename_i follows
        obtain ⟨rfl, rfl⟩ := Prod.mk.inj (Option.some.inj first)
        exact ⟨_, _, _, _, _, lead, follows, rfl⟩
  · rintro ⟨value, least, greatest, more, code, lead, follows, rfl⟩
    simp [lead, follows]

/-! ### Encoding -/

theorem leadByte_ofNat {n : Nat} (small : n < 256) :
    leadByte (UInt8.ofNat n) =
      if n < 0x80 then some (n, 0x80, 0xBF, 0)
      else if n < 0xC2 then none
      else if n < 0xE0 then some (n - 0xC0, 0x80, 0xBF, 1)
      else if n < 0xF0 then some (n - 0xE0, if n = 0xE0 then 0xA0 else 0x80, if n = 0xED then 0x9F else 0xBF, 2)
      else if n < 0xF5 then some (n - 0xF0, if n = 0xF0 then 0x90 else 0x80, if n = 0xF4 then 0x8F else 0xBF, 3)
      else none := by
  have number : (UInt8.ofNat n).toNat = n := by
    rw [UInt8.toNat_ofNat']
    omega
  unfold leadByte
  simp only [UInt8.lt_iff_toNat_lt, ← UInt8.toNat_inj, number]
  rfl

theorem followBytes_cons {x : Nat} (small : x < 64) (low : least.toNat ≤ x + 128) (high : x + 128 ≤ greatest.toNat)
    (value seen more : Nat) (tail : List UInt8) :
    followBytes value least greatest seen (more + 1) (UInt8.ofNat (x + 128) :: tail) =
      followBytes (value * 64 + x) 0x80 0xBF (seen + 1) more tail := by
  have number : (UInt8.ofNat (x + 128)).toNat = x + 128 := by
    rw [UInt8.toNat_ofNat']
    omega
  have inside : least ≤ UInt8.ofNat (x + 128) ∧ UInt8.ofNat (x + 128) ≤ greatest := by
    rw [UInt8.le_iff_toNat_le, UInt8.le_iff_toNat_le, number]
    exact ⟨low, high⟩
  rw [followBytes, if_pos (by simpa using inside), number, Nat.add_sub_cancel]

theorem firstChar?_encode (c : Char) (rest : List UInt8) :
    firstChar? (String.utf8EncodeChar c ++ rest) = some (c, rest) := by
  have scalar : c.val.toNat < 0xD800 ∨ 0xDFFF < c.val.toNat ∧ c.val.toNat < 0x110000 := c.valid
  have back : Char.ofNat c.val.toNat = c := Char.ofNat_toNat c
  rw [String.utf8EncodeChar]
  generalize c.val.toNat = v at scalar back ⊢
  -- One case for each number of bytes. The second byte's bounds shut out surrogates and longer forms.
  by_cases one : v ≤ 0x7F
  · rw [if_pos one, List.cons_append, List.nil_append, firstChar?_eq_some]
    refine ⟨v, 0x80, 0xBF, 0, v, ?_, rfl, back⟩
    rw [leadByte_ofNat (by omega), if_pos (by omega)]
  rw [if_neg one]
  by_cases two : v ≤ 0x7FF
  · have lead : leadByte (UInt8.ofNat (v / 64 % 32 + 192)) = _ := leadByte_ofNat (by omega)
    rw [if_neg (by omega), if_neg (by omega), if_pos (by omega)] at lead
    rw [if_pos two, List.cons_append, firstChar?_eq_some]
    refine ⟨_, _, _, 1, v, lead, ?_, back⟩
    rw [List.cons_append, followBytes_cons (by omega) (by simp) (by simp; omega), followBytes]
    congr 2
    omega
  rw [if_neg two]
  by_cases three : v ≤ 0xFFFF
  · have lead : leadByte (UInt8.ofNat (v / 4096 % 16 + 224)) = _ := leadByte_ofNat (by omega)
    rw [if_neg (by omega), if_neg (by omega), if_neg (by omega), if_pos (by omega)] at lead
    rw [if_pos three, List.cons_append, firstChar?_eq_some]
    refine ⟨_, _, _, 2, v, lead, ?_, back⟩
    rw [List.cons_append, followBytes_cons (by omega) (by split <;> simp; omega) (by split <;> simp <;> omega),
      List.cons_append, followBytes_cons (by omega) (by simp) (by simp; omega), followBytes]
    congr 2
    omega
  · have lead : leadByte (UInt8.ofNat (v / 262144 % 8 + 240)) = _ := leadByte_ofNat (by omega)
    rw [if_neg (by omega), if_neg (by omega), if_neg (by omega), if_neg (by omega), if_pos (by omega)] at lead
    rw [if_neg three, List.cons_append, firstChar?_eq_some]
    refine ⟨_, _, _, 3, v, lead, ?_, back⟩
    rw [List.cons_append, followBytes_cons (by omega) (by split <;> simp; omega) (by split <;> simp <;> omega),
      List.cons_append, followBytes_cons (by omega) (by simp) (by simp; omega),
      List.cons_append, followBytes_cons (by omega) (by simp) (by simp; omega), followBytes]
    congr 2
    omega

/-! ### Decoding -/

theorem ofNat_of_toNat (byte : UInt8) {n : Nat} (same : byte.toNat = n) : UInt8.ofNat n = byte := by
  rw [← same, UInt8.ofNat_toNat]

theorem exists_of_followBytes (follows : followBytes value least greatest seen (more + 1) tail = .ok (code, rest)) :
    ∃ byte behind, tail = byte :: behind ∧ least.toNat ≤ byte.toNat ∧ byte.toNat ≤ greatest.toNat ∧
      followBytes (value * 64 + (byte.toNat - 128)) 0x80 0xBF (seen + 1) more behind = .ok (code, rest) := by
  cases tail with
  | nil => cases follows
  | cons byte behind =>
    rw [followBytes] at follows
    split at follows
    · rename_i inside
      obtain ⟨low, high⟩ := by simpa [UInt8.le_iff_toNat_le] using inside
      exact ⟨byte, behind, rfl, low, high, follows⟩
    · cases follows

theorem toNat_ofNat_scalar (scalar : v < 0xD800 ∨ 0xDFFF < v ∧ v < 0x110000) : (Char.ofNat v).val.toNat = v := by
  have valid : v.isValidChar := scalar
  rw [Char.ofNat, dif_pos valid]
  rfl

theorem encode_ofNat (scalar : v < 0xD800 ∨ 0xDFFF < v ∧ v < 0x110000) :
    String.utf8EncodeChar (Char.ofNat v) =
      if v ≤ 0x7F then [UInt8.ofNat v]
      else if v ≤ 0x7FF then [UInt8.ofNat (v / 64 % 32 + 192), UInt8.ofNat (v % 64 + 128)]
      else if v ≤ 0xFFFF then
        [UInt8.ofNat (v / 4096 % 16 + 224), UInt8.ofNat (v / 64 % 64 + 128), UInt8.ofNat (v % 64 + 128)]
      else [UInt8.ofNat (v / 262144 % 8 + 240), UInt8.ofNat (v / 4096 % 64 + 128), UInt8.ofNat (v / 64 % 64 + 128),
        UInt8.ofNat (v % 64 + 128)] := by
  rw [String.utf8EncodeChar, toNat_ofNat_scalar scalar]

theorem eq_encode_of_firstChar? (first : firstChar? bytes = some (c, rest)) :
    bytes = String.utf8EncodeChar c ++ rest := by
  cases bytes with
  | nil => cases first
  | cons byte tail =>
    obtain ⟨value, least, greatest, more, code, lead, follows, rfl⟩ := firstChar?_eq_some.mp first
    have number := byte.toNat_lt
    rw [← @UInt8.ofNat_toNat byte, leadByte_ofNat number] at lead
    split at lead
    · obtain ⟨rfl, rfl, rfl, rfl⟩ := by simpa using lead
      obtain ⟨rfl, rfl⟩ := Prod.mk.inj (Except.ok.inj follows)
      rw [encode_ofNat (by omega), if_pos (by omega), UInt8.ofNat_toNat]
      rfl
    split at lead
    · cases lead
    split at lead
    · obtain ⟨rfl, rfl, rfl, rfl⟩ := by simpa using lead
      obtain ⟨second, behind, rfl, low, high, follows⟩ := exists_of_followBytes follows
      obtain ⟨rfl, rfl⟩ := Prod.mk.inj (Except.ok.inj follows)
      simp only [UInt8.reduceToNat] at low high
      rw [encode_ofNat (by omega), if_neg (by omega), if_pos (by omega), ofNat_of_toNat byte (by omega),
        ofNat_of_toNat second (by omega)]
      rfl
    split at lead
    · obtain ⟨rfl, rfl, rfl, rfl⟩ := by simpa using lead
      obtain ⟨second, behind, rfl, low, high, follows⟩ := exists_of_followBytes follows
      obtain ⟨third, behind, rfl, alsoLow, alsoHigh, follows⟩ := exists_of_followBytes follows
      obtain ⟨rfl, rfl⟩ := Prod.mk.inj (Except.ok.inj follows)
      have bounds : (byte.toNat = 0xE0 → 0xA0 ≤ second.toNat) ∧ (byte.toNat = 0xED → second.toNat ≤ 0x9F) ∧
          128 ≤ second.toNat ∧ second.toNat ≤ 191 := by
        split at low <;> split at high <;> simp only [UInt8.reduceToNat] at low high <;> omega
      simp only [UInt8.reduceToNat] at alsoLow alsoHigh
      rw [encode_ofNat (by omega), if_neg (by omega), if_neg (by omega), if_pos (by omega),
        ofNat_of_toNat byte (by omega), ofNat_of_toNat second (by omega), ofNat_of_toNat third (by omega)]
      rfl
    split at lead
    · obtain ⟨rfl, rfl, rfl, rfl⟩ := by simpa using lead
      obtain ⟨second, behind, rfl, low, high, follows⟩ := exists_of_followBytes follows
      obtain ⟨third, behind, rfl, alsoLow, alsoHigh, follows⟩ := exists_of_followBytes follows
      obtain ⟨fourth, behind, rfl, lastLow, lastHigh, follows⟩ := exists_of_followBytes follows
      obtain ⟨rfl, rfl⟩ := Prod.mk.inj (Except.ok.inj follows)
      have bounds : (byte.toNat = 0xF0 → 0x90 ≤ second.toNat) ∧ (byte.toNat = 0xF4 → second.toNat ≤ 0x8F) ∧
          128 ≤ second.toNat ∧ second.toNat ≤ 191 := by
        split at low <;> split at high <;> simp only [UInt8.reduceToNat] at low high <;> omega
      simp only [UInt8.reduceToNat] at alsoLow alsoHigh lastLow lastHigh
      rw [encode_ofNat (by omega), if_neg (by omega), if_neg (by omega), if_neg (by omega),
        ofNat_of_toNat byte (by omega), ofNat_of_toNat second (by omega), ofNat_of_toNat third (by omega),
        ofNat_of_toNat fourth (by omega)]
      rfl
    · cases lead

theorem firstChar?_eq_some_iff : firstChar? bytes = some (c, rest) ↔ bytes = String.utf8EncodeChar c ++ rest := by
  constructor
  · exact eq_encode_of_firstChar?
  · rintro rfl
    exact firstChar?_encode c rest

theorem length_encode_pos (c : Char) : 0 < (String.utf8EncodeChar c).length := by
  rw [String.length_utf8EncodeChar]
  exact Char.utf8Size_pos c

theorem encodeUtf8_cons (c : Char) (text : List Char) :
    encodeUtf8 (c :: text) = String.utf8EncodeChar c ++ encodeUtf8 text :=
  List.flatMap_cons

theorem encodeUtf8_append (text others : List Char) :
    encodeUtf8 (text ++ others) = encodeUtf8 text ++ encodeUtf8 others :=
  List.flatMap_append

theorem nil_eq_encodeUtf8_iff : [] = encodeUtf8 text ↔ text = [] := by
  cases text with
  | nil => exact ⟨fun _ => rfl, fun _ => rfl⟩
  | cons c text =>
    have some := length_encode_pos c
    refine ⟨fun none => ?_, fun empty => by cases empty⟩
    rw [encodeUtf8_cons, eq_comm, List.append_eq_nil_iff] at none
    rw [none.1] at some
    cases some

theorem decodeUtf8From_eq_ok_iff (enough : bytes.length ≤ fuel) :
    decodeUtf8From fuel position bytes = .ok text ↔ bytes = encodeUtf8 text := by
  induction fuel generalizing position bytes text with
  | zero =>
    obtain rfl := List.length_eq_zero_iff.mp (Nat.le_zero.mp enough)
    rw [decodeUtf8From, nil_eq_encodeUtf8_iff]
    simp [eq_comm]
  | succ fuel ih =>
    cases bytes with
    | nil =>
      rw [decodeUtf8From, nil_eq_encodeUtf8_iff]
      simp [eq_comm]
    | cons byte tail =>
      have shorter : ∀ {c rest}, firstChar? (byte :: tail) = some (c, rest) → rest.length ≤ fuel := by
        intro c rest first
        have some := length_encode_pos c
        rw [eq_encode_of_firstChar? first, List.length_append] at enough
        omega
      constructor
      · intro decoded
        rw [decodeUtf8From] at decoded
        split at decoded
        · cases decoded
        · rename_i lead
          split at decoded
          · cases decoded
          · rename_i code rest follows
            have first := firstChar?_eq_some.mpr ⟨_, _, _, _, _, lead, follows, rfl⟩
            cases behind : decodeUtf8From fuel (position + _ + 1) rest with
            | error fault =>
              rw [behind] at decoded
              cases decoded
            | ok others =>
              rw [behind] at decoded
              obtain rfl := Except.ok.inj decoded
              rw [encodeUtf8_cons, ← (ih (shorter first)).mp behind, ← eq_encode_of_firstChar? first]
      · intro encoded
        cases text with
        | nil => cases encoded
        | cons c text =>
          have first := firstChar?_eq_some_iff.mpr (encoded.trans (encodeUtf8_cons c text))
          obtain ⟨value, least, greatest, more, code, lead, follows, rfl⟩ := firstChar?_eq_some.mp first
          rw [decodeUtf8From, lead]
          dsimp only
          rw [follows]
          dsimp only
          rw [(ih (shorter first)).mpr rfl]
          rfl

/-- Bytes are text exactly if they are the encoding of one. -/
theorem decodeUtf8_eq_ok_iff : decodeUtf8 bytes = .ok text ↔ bytes = encodeUtf8 text :=
  decodeUtf8From_eq_ok_iff (Nat.le_refl _)

theorem encodeUtf8_inj : encodeUtf8 text = encodeUtf8 others ↔ text = others := by
  refine ⟨fun same => ?_, congrArg encodeUtf8⟩
  have first : decodeUtf8 (encodeUtf8 text) = .ok text := decodeUtf8_eq_ok_iff.mpr rfl
  exact Except.ok.inj (first.symm.trans (decodeUtf8_eq_ok_iff.mpr same))

theorem eq_newline_of_getLast? (last : (String.utf8EncodeChar c).getLast? = some 10) : c = '\n' := by
  have behind : ∀ x < 64, UInt8.ofNat (x + 128) ≠ 10 := by
    intro x small same
    have number : (UInt8.ofNat (x + 128)).toNat = 10 := by rw [same]; rfl
    rw [UInt8.toNat_ofNat'] at number
    omega
  rw [String.utf8EncodeChar] at last
  split at last
  · have same : UInt8.ofNat c.val.toNat = 10 := Option.some.inj last
    have number : (UInt8.ofNat c.val.toNat).toNat = 10 := by rw [same]; rfl
    rw [UInt8.toNat_ofNat', Nat.mod_eq_of_lt (by omega)] at number
    exact Char.toNat_inj.mp number
  · split at last
    · exact absurd (Option.some.inj last) (behind _ (by omega))
    split at last
    · exact absurd (Option.some.inj last) (behind _ (by omega))
    · exact absurd (Option.some.inj last) (behind _ (by omega))

/-- Text whose last byte is that of a line feed ends with a line feed: the byte is none of a longer character. -/
theorem ends_with_newline (last : (encodeUtf8 text).getLast? = some 10) : ∃ front, text = front ++ ['\n'] := by
  rcases List.eq_nil_or_concat text with rfl | ⟨front, c, rfl⟩
  · cases last
  have some : String.utf8EncodeChar c ≠ [] := List.ne_nil_of_length_pos (length_encode_pos c)
  have own : (encodeUtf8 [c]).getLast? = (String.utf8EncodeChar c).getLast? := by
    rw [encodeUtf8_cons, show encodeUtf8 [] = [] from rfl, List.append_nil]
  rw [List.concat_eq_append, encodeUtf8_append, List.getLast?_append, own, List.getLast?_eq_some_getLast some,
    Option.some_or, ← List.getLast?_eq_some_getLast some] at last
  rw [List.concat_eq_append, eq_newline_of_getLast? last]
  exact ⟨front, rfl⟩

end SyntaxTally.Text
