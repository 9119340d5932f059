import Polyline.Text.Utf8

/-! Text written as bytes and read again. Each character starts a piece of its own, so what stands
behind it does not matter. -/

set_option autoImplicit false

namespace Polyline.Utf8

theorem isContinuation_iff {byte : UInt8} :
    isContinuation byte = true ↔ 0x80 ≤ byte.toNat ∧ byte.toNat < 0xc0 := by
  simp [isContinuation, UInt8.lt_iff_toNat_lt, UInt8.le_iff_toNat_le]

theorem isSecond_of_toNat {lead second : UInt8} (follows : isContinuation second = true)
    (above : lead.toNat = 0xe0 → 0xa0 ≤ second.toNat)
    (below : lead.toNat = 0xed → second.toNat < 0xa0)
    (beyond : lead.toNat = 0xf0 → 0x90 ≤ second.toNat)
    (within : lead.toNat = 0xf4 → second.toNat < 0x90) : isSecond lead second = true := by
  unfold isSecond
  rw [follows, Bool.true_and]
  split
  next first =>
    subst first
    exact decide_eq_true (UInt8.le_iff_toNat_le.2 (above rfl))
  split
  next first =>
    subst first
    exact decide_eq_true (UInt8.lt_iff_toNat_lt.2 (below rfl))
  split
  next first =>
    subst first
    exact decide_eq_true (UInt8.le_iff_toNat_le.2 (beyond rfl))
  split
  next first =>
    subst first
    exact decide_eq_true (UInt8.lt_iff_toNat_lt.2 (within rfl))
  rfl

variable {lead second third fourth : UInt8}

theorem pieces_one (single : lead.toNat < 0x80) (rest : Bytes) :
    pieces (lead :: rest) = some (Char.ofNat lead.toNat) :: pieces rest := by
  have one : lead < 0x80 := UInt8.lt_iff_toNat_lt.2 single
  rw [pieces.eq_def]
  exact if_pos one

theorem isLead (several : 0xc2 ≤ lead.toNat) (valid : lead.toNat < 0xf5) :
    ¬ lead < 0x80 ∧ ¬ (lead < 0xc2 ∨ 0xf5 ≤ lead) := by
  rw [UInt8.lt_iff_toNat_lt, UInt8.lt_iff_toNat_lt, UInt8.le_iff_toNat_le]
  exact ⟨Nat.not_lt.2 (Nat.le_trans (by decide) several),
    not_or.2 ⟨Nat.not_lt.2 several, Nat.not_le.2 valid⟩⟩

theorem pieces_two (several : 0xc2 ≤ lead.toNat) (two : lead.toNat < 0xe0)
    (follows : isSecond lead second = true) (rest : Bytes) :
    pieces (lead :: second :: rest) =
      some (Char.ofNat (lead.toNat % 0x20 * 0x40 + payload second)) :: pieces rest := by
  obtain ⟨multiple, valid⟩ := isLead several (Nat.lt_trans two (by decide))
  have short : lead < 0xe0 := UInt8.lt_iff_toNat_lt.2 two
  rw [pieces.eq_def]
  simp only [multiple, valid, follows, short, if_true, if_false, Bool.true_eq_false]

theorem pieces_three (several : 0xe0 ≤ lead.toNat) (three : lead.toNat < 0xf0)
    (follows : isSecond lead second = true) (thirdFollows : isContinuation third = true)
    (rest : Bytes) :
    pieces (lead :: second :: third :: rest) =
      some (Char.ofNat (lead.toNat % 0x10 * 0x1000 + payload second * 0x40 + payload third)) ::
        pieces rest := by
  obtain ⟨multiple, valid⟩ :=
    isLead (Nat.le_trans (by decide) several) (Nat.lt_trans three (by decide))
  have long : ¬ lead < 0xe0 := mt UInt8.lt_iff_toNat_lt.1 (Nat.not_lt.2 several)
  have short : lead < 0xf0 := UInt8.lt_iff_toNat_lt.2 three
  rw [pieces.eq_def]
  simp only [multiple, valid, follows, thirdFollows, long, short, if_true, if_false,
    Bool.true_eq_false]

theorem pieces_four (several : 0xf0 ≤ lead.toNat) (four : lead.toNat < 0xf5)
    (follows : isSecond lead second = true) (thirdFollows : isContinuation third = true)
    (fourthFollows : isContinuation fourth = true) (rest : Bytes) :
    pieces (lead :: second :: third :: fourth :: rest) =
      some (Char.ofNat (lead.toNat % 0x08 * 0x40000 + payload second * 0x1000 +
        payload third * 0x40 + payload fourth)) :: pieces rest := by
  obtain ⟨multiple, valid⟩ := isLead (Nat.le_trans (by decide) several) four
  have long : ¬ lead < 0xe0 :=
    mt UInt8.lt_iff_toNat_lt.1 (Nat.not_lt.2 (Nat.le_trans (by decide) several))
  have longer : ¬ lead < 0xf0 := mt UInt8.lt_iff_toNat_lt.1 (Nat.not_lt.2 several)
  rw [pieces.eq_def]
  simp only [multiple, valid, follows, thirdFollows, fourthFollows, long, longer, if_false,
    Bool.true_eq_false]

/-! ## One character -/

theorem toNat_ofNat {number : Nat} (small : number < 0x100) : (UInt8.ofNat number).toNat = number :=
  UInt8.toNat_ofNat_of_lt small

theorem toNat_ofNat_continuation (number : Nat) :
    (UInt8.ofNat (number % 0x40 + 0x80)).toNat = number % 0x40 + 0x80 := toNat_ofNat (by omega)

theorem isContinuation_ofNat (number : Nat) :
    isContinuation (UInt8.ofNat (number % 0x40 + 0x80)) = true := by
  apply isContinuation_iff.2
  rw [toNat_ofNat_continuation]
  omega

theorem payload_ofNat (number : Nat) :
    payload (UInt8.ofNat (number % 0x40 + 0x80)) = number % 0x40 := by
  rw [payload, toNat_ofNat_continuation]
  omega

theorem pieces_utf8EncodeChar_append (char : Char) (rest : Bytes) :
    pieces (String.utf8EncodeChar char ++ rest) = some char :: pieces rest := by
  have code : Char.ofNat char.val.toNat = char := Char.ofNat_toNat char
  have valid : char.val.toNat < 0xd800 ∨ 0xdfff < char.val.toNat ∧ char.val.toNat < 0x110000 :=
    char.valid
  unfold String.utf8EncodeChar
  generalize char.val.toNat = number at *
  dsimp only
  have final := isContinuation_ofNat number
  have middle := isContinuation_ofNat (number / 64)
  have middleToNat := toNat_ofNat_continuation (number / 64)
  -- The cases are the numbers of bytes. In each the first byte says how many there are.
  split
  next one =>
    have lead : (UInt8.ofNat number).toNat = number := toNat_ofNat (by omega)
    rw [List.singleton_append, pieces_one (by omega), lead, code]
  split
  next two =>
    have lead : (UInt8.ofNat (number / 64 % 32 + 192)).toNat = number / 64 % 32 + 192 :=
      toNat_ofNat (by omega)
    have follows : isSecond (UInt8.ofNat (number / 64 % 32 + 192))
        (UInt8.ofNat (number % 64 + 128)) = true :=
      isSecond_of_toNat final (by omega) (by omega) (by omega) (by omega)
    have value : (number / 64 % 32 + 192) % 0x20 * 0x40 + number % 0x40 = number := by omega
    rw [List.cons_append, List.singleton_append, pieces_two (by omega) (by omega) follows, lead,
      payload_ofNat, value, code]
  split
  next three =>
    have lead : (UInt8.ofNat (number / 4096 % 16 + 224)).toNat = number / 4096 % 16 + 224 :=
      toNat_ofNat (by omega)
    have follows : isSecond (UInt8.ofNat (number / 4096 % 16 + 224))
        (UInt8.ofNat (number / 64 % 64 + 128)) = true :=
      isSecond_of_toNat middle (by omega) (by omega) (by omega) (by omega)
    have value : (number / 4096 % 16 + 224) % 0x10 * 0x1000 + number / 64 % 0x40 * 0x40 +
        number % 0x40 = number := by omega
    rw [List.cons_append, List.cons_append, List.singleton_append,
      pieces_three (by omega) (by omega) follows final, lead, payload_ofNat, payload_ofNat, value,
      code]
  next four =>
    have lead : (UInt8.ofNat (number / 262144 % 8 + 240)).toNat = number / 262144 % 8 + 240 :=
      toNat_ofNat (by omega)
    have secondToNat := toNat_ofNat_continuation (number / 4096)
    have follows : isSecond (UInt8.ofNat (number / 262144 % 8 + 240))
        (UInt8.ofNat (number / 4096 % 64 + 128)) = true :=
      isSecond_of_toNat (isContinuation_ofNat (number / 4096)) (by omega) (by omega) (by omega)
        (by omega)
    have value : (number / 262144 % 8 + 240) % 0x08 * 0x40000 + number / 4096 % 0x40 * 0x1000 +
        number / 64 % 0x40 * 0x40 + number % 0x40 = number := by omega
    rw [List.cons_append, List.cons_append, List.cons_append, List.singleton_append,
      pieces_four (by omega) (by omega) follows middle final, lead, payload_ofNat, payload_ofNat,
      payload_ofNat, value, code]

/-! ## Whole texts -/

theorem encode_ofList (text : List Char) :
    encode (String.ofList text) = text.flatMap String.utf8EncodeChar := by
  simp [encode, List.utf8Encode]

theorem pieces_encode (text : String) : pieces (encode text) = text.toList.map some := by
  have characters (chars : List Char) :
      pieces (chars.flatMap String.utf8EncodeChar) = chars.map some := by
    induction chars with
    | nil => rfl
    | cons char chars ih => rw [List.flatMap_cons, pieces_utf8EncodeChar_append, ih, List.map_cons]
  rw [← characters, ← encode_ofList, String.ofList_toList]

theorem decode?_encode (text : String) : decode? (encode text) = some text := by
  have read : text.toList.mapM (fun char => some (id char)) = some (text.toList.map id) :=
    List.mapM_pure
  rw [decode?, pieces_encode, List.mapM_map]
  exact (congrArg (Option.map String.ofList) read).trans (by simp)

theorem decodeLenient_encode (text : String) : decodeLenient (encode text) = text := by
  rw [decodeLenient, pieces_encode, List.map_map]
  simp [Function.comp_def]

theorem encode_append (front back : String) :
    encode (front ++ back) = encode front ++ encode back := by
  simp [encode]

/-! ## ASCII -/

theorem pieces_of_ascii {bytes : Bytes} (ascii : ∀ byte ∈ bytes, byte.toNat < 0x80) :
    pieces bytes = bytes.map fun byte => some (Char.ofNat byte.toNat) := by
  induction bytes with
  | nil => rfl
  | cons first bytes ih =>
    obtain ⟨one, others⟩ := List.forall_mem_cons.1 ascii
    rw [pieces_one one, ih others, List.map_cons]

theorem utf8EncodeChar_ofNat {byte : UInt8} (ascii : byte.toNat < 0x80) :
    String.utf8EncodeChar (Char.ofNat byte.toNat) = [byte] := by
  have code : (Char.ofNat byte.toNat).val.toNat = byte.toNat := by
    have valid : byte.toNat.isValidChar := .inl (by omega)
    rw [Char.ofNat, dif_pos valid]
    rfl
  unfold String.utf8EncodeChar
  rw [code]
  dsimp only
  rw [if_pos (by omega), UInt8.ofNat_toNat]

theorem encode_decodeLenient_of_ascii {bytes : Bytes} (ascii : ∀ byte ∈ bytes, byte.toNat < 0x80) :
    encode (decodeLenient bytes) = bytes := by
  have each : bytes.map (fun byte => String.utf8EncodeChar (Char.ofNat byte.toNat)) =
      bytes.map fun byte => [byte] :=
    List.map_congr_left fun byte member => utf8EncodeChar_ofNat (ascii byte member)
  rw [decodeLenient, pieces_of_ascii ascii, encode_ofList, List.map_map, List.flatMap_map,
    List.flatMap_def]
  exact (congrArg List.flatten each).trans (List.flatMap_singleton' bytes)

theorem ofUInt8_eq_ofNat (byte : UInt8) : Char.ofUInt8 byte = Char.ofNat byte.toNat := by
  have valid : byte.toNat.isValidChar := .inl (Nat.lt_trans byte.toNat_lt (by decide))
  rw [Char.ofNat, dif_pos valid]
  rfl

theorem decodeLenient_of_ascii {bytes : Bytes} (ascii : ∀ byte ∈ bytes, byte.toNat < 0x80) :
    decodeLenient bytes = String.ofList (bytes.map Char.ofUInt8) := by
  rw [decodeLenient, pieces_of_ascii ascii, List.map_map]
  exact congrArg String.ofList (List.map_congr_left fun byte _ => (ofUInt8_eq_ofNat byte).symm)

/-- The characters of ASCII codes are written with those codes again. -/
theorem encode_ofList_map_ofUInt8 {bytes : Bytes} (ascii : ∀ byte ∈ bytes, byte.toNat < 0x80) :
    encode (String.ofList (bytes.map Char.ofUInt8)) = bytes := by
  rw [← decodeLenient_of_ascii ascii, encode_decodeLenient_of_ascii ascii]

end Polyline.Utf8
