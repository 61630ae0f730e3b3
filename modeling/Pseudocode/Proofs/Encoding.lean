import Pseudocode.ReadFailure

/-!
# Encoding

The decoder reads exactly what the encoder writes: bytes decode to a text if and only if they are
the encoding of this text (`decode_eq_ok_iff`), so bytes that encode no text at all are
refused.  That takes in every malformed sequence there is: overlong forms, surrogates, code
points beyond the last one, stray and missing bytes.

The decoder works byte by byte, so the proof goes through what it is in the middle of.

* An opened character is read exactly by bytes that complete it (`decodeFrom_append`,
  `exists_completes`).
* A first byte opens one of three classes, by the number of bytes behind it, and the bounds
  of the second byte say in each class that the code point belongs there
  (`opens_of_ofFirst?`).  Hence the bytes that complete it are the encoding of the
  character (`encodeChar_of_completes`), and every encoding comes about in this way
  (`exists_completes_encodeChar`).

So bytes make a source exactly if they encode a text (`Source.ofBytes_encode`,
`Source.exists_encode_of_ofBytes`).
-/

namespace Pseudocode.Utf8

/-! ## Opened characters -/

/-- The bytes complete the opened character, which then has the code point `v`. -/
inductive Opening.Completes : Opening → List UInt8 → Nat → Prop
  | last {o : Opening} {byte : UInt8} {v : Nat} (fits : o.next.admits byte)
      (done : o.remaining = 0) (code : o.valueWith byte = v) : Completes o [byte] v
  | more {o : Opening} {byte : UInt8} {bytes : List UInt8} {v : Nat} (fits : o.next.admits byte)
      (pending : o.remaining ≠ 0) (later : Completes (o.advance byte) bytes v) :
      Completes o (byte :: bytes) v

namespace Opening.Completes

variable {o : Opening} {front : List UInt8} {v : Nat}

theorem exists_last (h : o.Completes front v) (done : o.remaining = 0) :
    ∃ byte, front = [byte] ∧ o.next.admits byte ∧ o.valueWith byte = v := by
  cases h with
  | last fits _ code => exact ⟨_, rfl, fits, code⟩
  | more _ pending _ => exact absurd done pending

theorem exists_more (h : o.Completes front v) (pending : o.remaining ≠ 0) :
    ∃ byte bytes, front = byte :: bytes ∧ o.next.admits byte ∧
      (o.advance byte).Completes bytes v := by
  cases h with
  | last _ done _ => exact absurd done pending
  | more fits _ later => exact ⟨_, _, rfl, fits, later⟩

end Opening.Completes

theorem decodeFrom_append {o : Opening} {front : List UInt8} {v : Nat}
    (completes : o.Completes front v) (offset : Nat) (rest : List UInt8) :
    decodeFrom offset (some o) (front ++ rest) =
      (Char.ofNat v :: ·) <$> decodeFrom (offset + front.length) none rest := by
  induction completes generalizing offset with
  | last fits done code =>
      rw [List.singleton_append, decodeFrom, if_pos fits, if_pos done, code]
      rfl
  | more fits pending later ih =>
      rw [List.cons_append, decodeFrom, if_pos fits, if_neg pending, ih, List.length_cons,
        Nat.add_assoc, Nat.add_comm 1]

/-- A reading of more bytes after a character is a reading of these bytes. -/
theorem exists_of_map_cons {c : Char} {r : Except DecodeError Text} {u : Text}
    (h : (c :: ·) <$> r = .ok u) : ∃ tail, r = .ok tail ∧ u = c :: tail := by
  cases r with
  | error e => exact nomatch h
  | ok tail => exact ⟨tail, rfl, (Except.ok.inj h).symm⟩

/-- Where an opened character is read, the first bytes complete it. -/
theorem exists_completes {bytes : List UInt8} {offset : Nat} {o : Opening} {u : Text}
    (read : decodeFrom offset (some o) bytes = .ok u) :
    ∃ front v rest tail, bytes = front ++ rest ∧ o.Completes front v ∧ u = Char.ofNat v :: tail ∧
      decodeFrom (offset + front.length) none rest = .ok tail := by
  induction bytes generalizing offset o with
  | nil => exact nomatch read
  | cons byte bytes ih =>
      rw [decodeFrom] at read
      by_cases fits : o.next.admits byte
      · rw [if_pos fits] at read
        by_cases done : o.remaining = 0
        · rw [if_pos done] at read
          obtain ⟨tail, later, same⟩ := exists_of_map_cons read
          exact ⟨[byte], _, bytes, tail, rfl, .last fits done rfl, same, later⟩
        · rw [if_neg done] at read
          obtain ⟨front, v, rest, tail, rfl, completes, same, later⟩ := ih read
          refine ⟨byte :: front, v, rest, tail, rfl, .more fits done completes, same, ?_⟩
          rw [List.length_cons, Nat.add_comm front.length, ← Nat.add_assoc]
          exact later
      · rw [if_neg fits] at read
        exact nomatch read

/-! ## First bytes -/

theorem Bounds.admits_iff {b : Bounds} {byte : UInt8} :
    b.admits byte ↔ b.least.toNat ≤ byte.toNat ∧ byte.toNat ≤ b.greatest.toNat := by
  simp [admits, UInt8.le_iff_toNat_le]

theorem Bounds.tail_admits_iff {byte : UInt8} :
    Bounds.tail.admits byte ↔ 0x80 ≤ byte.toNat ∧ byte.toNat ≤ 0xbf :=
  admits_iff

/-- What a first byte opens, by the number of bytes behind it.  A second byte is admitted if the
    code points that it leads to have no shorter encoding, are no surrogates and are not
    too great. -/
inductive Opens (byte : UInt8) (o : Opening) : Prop
  | two (low : 0xc2 ≤ byte.toNat) (high : byte.toNat ≤ 0xdf)
      (value : o.value = byte.toNat - 0xc0) (remaining : o.remaining = 0)
      (next : ∀ x, o.next.admits x ↔ 0x80 ≤ x.toNat ∧ x.toNat ≤ 0xbf)
  | three (low : 0xe0 ≤ byte.toNat) (high : byte.toNat ≤ 0xef)
      (value : o.value = byte.toNat - 0xe0) (remaining : o.remaining = 1)
      (next : ∀ x, o.next.admits x ↔ (0x80 ≤ x.toNat ∧ x.toNat ≤ 0xbf) ∧
        0x800 ≤ o.valueWith x * 64 ∧ (o.valueWith x * 64 < 0xd800 ∨ 0xe000 ≤ o.valueWith x * 64))
  | four (low : 0xf0 ≤ byte.toNat) (high : byte.toNat ≤ 0xf4)
      (value : o.value = byte.toNat - 0xf0) (remaining : o.remaining = 2)
      (next : ∀ x, o.next.admits x ↔ (0x80 ≤ x.toNat ∧ x.toNat ≤ 0xbf) ∧
        0x10000 ≤ o.valueWith x * 4096 ∧ o.valueWith x * 4096 < 0x110000)

theorem opens_of_ofFirst? {start : Nat} {byte : UInt8} {o : Opening}
    (h : Opening.ofFirst? start byte = some o) : Opens byte o := by
  simp only [Opening.ofFirst?, UInt8.le_iff_toNat_le, ← UInt8.toNat_inj, UInt8.reduceToNat] at h
  -- one case for each row of the table, where `show` names the value that the row gives
  split at h
  · obtain rfl := Option.some.inj h
    refine .two (by omega) (by omega) (by show byte.toNat % 32 = _; omega) rfl fun x => ?_
    exact Bounds.tail_admits_iff
  split at h
  · obtain rfl := Option.some.inj h
    refine .three (by omega) (by omega) (by show 0 = _; omega) rfl fun x => ?_
    simp only [Bounds.admits_iff, Opening.valueWith, UInt8.reduceToNat]
    omega
  split at h
  · obtain rfl := Option.some.inj h
    refine .three (by omega) (by omega) (by show 13 = _; omega) rfl fun x => ?_
    simp only [Bounds.admits_iff, Opening.valueWith, UInt8.reduceToNat]
    omega
  split at h
  · obtain rfl := Option.some.inj h
    refine .three (by omega) (by omega) (by show byte.toNat % 16 = _; omega) rfl fun x => ?_
    simp only [Bounds.tail_admits_iff, Opening.valueWith]
    omega
  split at h
  · obtain rfl := Option.some.inj h
    refine .four (by omega) (by omega) (by show 0 = _; omega) rfl fun x => ?_
    simp only [Bounds.admits_iff, Opening.valueWith, UInt8.reduceToNat]
    omega
  split at h
  · obtain rfl := Option.some.inj h
    refine .four (by omega) (by omega) (by show 4 = _; omega) rfl fun x => ?_
    simp only [Bounds.admits_iff, Opening.valueWith, UInt8.reduceToNat]
    omega
  split at h
  · obtain rfl := Option.some.inj h
    refine .four (by omega) (by omega) (by show byte.toNat % 8 = _; omega) rfl fun x => ?_
    simp only [Bounds.tail_admits_iff, Opening.valueWith]
    omega
  · exact nomatch h

theorem exists_ofFirst? (start : Nat) (byte : UInt8) (low : 0xc2 ≤ byte.toNat)
    (high : byte.toNat ≤ 0xf4) : ∃ o, Opening.ofFirst? start byte = some o := by
  simp only [Opening.ofFirst?, UInt8.le_iff_toNat_le, ← UInt8.toNat_inj, UInt8.reduceToNat]
  repeat' split
  all_goals first | exact ⟨_, rfl⟩ | omega

/-! ## Encoded characters -/

theorem toNat_val_ofNat {v : Nat} (valid : v.isValidChar) : (Char.ofNat v).val.toNat = v := by
  rw [Char.ofNat, dif_pos valid]
  rfl

/-- A byte behind the first one, which holds the last six bits of the number. -/
def tailByte (v : Nat) : UInt8 :=
  UInt8.ofNat (v % 64 + 0x80)

theorem toNat_tailByte (v : Nat) : (tailByte v).toNat = v % 64 + 0x80 := by
  rw [tailByte, UInt8.toNat_ofNat']
  omega

theorem tailByte_eq {v : Nat} (byte : UInt8) (same : byte.toNat = v % 64 + 0x80) :
    tailByte v = byte := by
  rw [← UInt8.toNat_inj, toNat_tailByte, same]

theorem leadByte_eq {v : Nat} (byte : UInt8) (same : byte.toNat = v) : UInt8.ofNat v = byte := by
  rw [← same, UInt8.ofNat_toNat]

section

variable {v : Nat}

theorem encodeChar_one (high : v < 0x80) :
    String.utf8EncodeChar (Char.ofNat v) = [UInt8.ofNat v] := by
  have valid : v.isValidChar := Or.inl (by omega)
  simp only [String.utf8EncodeChar, toNat_val_ofNat valid]
  rw [if_pos (by omega)]

theorem encodeChar_two (low : 0x80 ≤ v) (high : v < 0x800) :
    String.utf8EncodeChar (Char.ofNat v) = [UInt8.ofNat (v / 64 + 0xc0), tailByte v] := by
  have valid : v.isValidChar := Or.inl (by omega)
  have lead : v / 64 % 0x20 = v / 64 := by omega
  simp only [String.utf8EncodeChar, toNat_val_ofNat valid]
  rw [if_neg (by omega), if_pos (by omega), lead]
  rfl

theorem encodeChar_three (low : 0x800 ≤ v) (high : v < 0x10000)
    (scalar : v < 0xd800 ∨ 0xe000 ≤ v) : String.utf8EncodeChar (Char.ofNat v) =
      [UInt8.ofNat (v / 4096 + 0xe0), tailByte (v / 64), tailByte v] := by
  have valid : v.isValidChar := scalar.imp id fun above => ⟨by omega, by omega⟩
  have lead : v / 4096 % 0x10 = v / 4096 := by omega
  simp only [String.utf8EncodeChar, toNat_val_ofNat valid]
  rw [if_neg (by omega), if_neg (by omega), if_pos (by omega), lead]
  rfl

theorem encodeChar_four (low : 0x10000 ≤ v) (high : v < 0x110000) :
    String.utf8EncodeChar (Char.ofNat v) =
      [UInt8.ofNat (v / 262144 + 0xf0), tailByte (v / 64 / 64), tailByte (v / 64), tailByte v] := by
  have valid : v.isValidChar := Or.inr ⟨by omega, high⟩
  have lead : v / 262144 % 0x08 = v / 262144 := by omega
  have second : v / 4096 = v / 64 / 64 := by omega
  simp only [String.utf8EncodeChar, toNat_val_ofNat valid]
  rw [if_neg (by omega), if_neg (by omega), if_neg (by omega), lead, second]
  rfl

end

/-- **What completes an opened character is its encoding.** -/
theorem encodeChar_of_completes {byte : UInt8} {o : Opening} {front : List UInt8} {v : Nat}
    (opens : Opens byte o) (completes : o.Completes front v) :
    String.utf8EncodeChar (Char.ofNat v) = byte :: front := by
  cases opens with
  | two low high value remaining next =>
      obtain ⟨x, rfl, fits, rfl⟩ := completes.exists_last remaining
      have bounds := (next x).mp fits
      have code : o.valueWith x = (byte.toNat - 0xc0) * 64 + x.toNat % 64 := by
        rw [Opening.valueWith, value]
      rw [encodeChar_two (by omega) (by omega), leadByte_eq byte (by omega),
        tailByte_eq x (by omega)]
  | three low high value remaining next =>
      obtain ⟨x, _, rfl, fits, completes⟩ := completes.exists_more (by omega)
      have last : (o.advance x).remaining = 0 := congrArg (· - 1) remaining
      obtain ⟨y, rfl, fits', code'⟩ := completes.exists_last last
      have bounds := (next x).mp fits
      have bounds' := Bounds.tail_admits_iff.mp fits'
      have code : o.valueWith x = (byte.toNat - 0xe0) * 64 + x.toNat % 64 := by
        rw [Opening.valueWith, value]
      have code' : v = o.valueWith x * 64 + y.toNat % 64 := code'.symm
      rw [encodeChar_three (by omega) (by omega) (by omega), leadByte_eq byte (by omega),
        tailByte_eq x (by omega), tailByte_eq y (by omega)]
  | four low high value remaining next =>
      obtain ⟨x, _, rfl, fits, completes⟩ := completes.exists_more (by omega)
      have second : (o.advance x).remaining = 1 := congrArg (· - 1) remaining
      obtain ⟨y, _, rfl, fits', completes⟩ := completes.exists_more (by omega)
      have last : ((o.advance x).advance y).remaining = 0 := congrArg (· - 1) second
      obtain ⟨z, rfl, fits'', code''⟩ := completes.exists_last last
      have bounds := (next x).mp fits
      have bounds' := Bounds.tail_admits_iff.mp fits'
      have bounds'' := Bounds.tail_admits_iff.mp fits''
      have code : o.valueWith x = (byte.toNat - 0xf0) * 64 + x.toNat % 64 := by
        rw [Opening.valueWith, value]
      have code'' : v = (o.valueWith x * 64 + y.toNat % 64) * 64 + z.toNat % 64 := code''.symm
      rw [encodeChar_four (by omega) (by omega), leadByte_eq byte (by omega),
        tailByte_eq x (by omega), tailByte_eq y (by omega), tailByte_eq z (by omega)]

section

variable {o : Opening} {v : Nat}

/-- A byte of an encoding adds its six bits to the bits before them. -/
theorem valueWith_tailByte (value : o.value = v / 64) : o.valueWith (tailByte v) = v := by
  rw [Opening.valueWith, value, toNat_tailByte]
  omega

theorem completes_one (value : o.value = v / 64) (remaining : o.remaining = 0)
    (fits : o.next.admits (tailByte v)) : o.Completes [tailByte v] v :=
  .last fits remaining (valueWith_tailByte value)

theorem tail_admits_tailByte (v : Nat) : Bounds.tail.admits (tailByte v) := by
  rw [Bounds.tail_admits_iff, toNat_tailByte]
  omega

theorem completes_two (value : o.value = v / 64 / 64) (remaining : o.remaining = 1)
    (fits : o.next.admits (tailByte (v / 64))) :
    o.Completes [tailByte (v / 64), tailByte v] v := by
  have last : (o.advance (tailByte (v / 64))).remaining = 0 := congrArg (· - 1) remaining
  exact .more fits (by omega)
    (completes_one (valueWith_tailByte value) last (tail_admits_tailByte v))

theorem completes_three (value : o.value = v / 64 / 64 / 64) (remaining : o.remaining = 2)
    (fits : o.next.admits (tailByte (v / 64 / 64))) :
    o.Completes [tailByte (v / 64 / 64), tailByte (v / 64), tailByte v] v := by
  have last : (o.advance (tailByte (v / 64 / 64))).remaining = 1 := congrArg (· - 1) remaining
  exact .more fits (by omega)
    (completes_two (valueWith_tailByte value) last (tail_admits_tailByte _))

/-- A number from the range of first bytes opens a character. -/
theorem exists_opens (start : Nat) {n : Nat} (low : 0xc2 ≤ n) (high : n ≤ 0xf4) :
    ∃ o, Opening.ofFirst? start (UInt8.ofNat n) = some o ∧ Opens (UInt8.ofNat n) o ∧
      (UInt8.ofNat n).toNat = n := by
  have same : (UInt8.ofNat n).toNat = n := by
    rw [UInt8.toNat_ofNat']
    omega
  obtain ⟨o, opened⟩ := exists_ofFirst? start (UInt8.ofNat n) (by omega) (by omega)
  exact ⟨o, opened, opens_of_ofFirst? opened, same⟩

/-- **Every encoding of several bytes comes about in this way.** -/
theorem exists_completes_encodeChar (start : Nat) (valid : v.isValidChar) (several : 0x80 ≤ v) :
    ∃ byte o front, String.utf8EncodeChar (Char.ofNat v) = byte :: front ∧
      Opening.ofFirst? start byte = some o ∧ o.Completes front v := by
  have scalar : v < 0xd800 ∨ 0xdfff < v ∧ v < 0x110000 := valid
  by_cases two : v < 0x800
  · obtain ⟨o, opened, opens, byte⟩ := exists_opens start (n := v / 64 + 0xc0) (by omega) (by omega)
    have second := toNat_tailByte v
    refine ⟨_, o, _, encodeChar_two several two, opened, ?_⟩
    cases opens with
    | two _ _ value remaining next =>
        exact completes_one (by omega) remaining ((next _).mpr (by omega))
    | _ => omega
  by_cases three : v < 0x10000
  · obtain ⟨o, opened, opens, byte⟩ :=
      exists_opens start (n := v / 4096 + 0xe0) (by omega) (by omega)
    have second := toNat_tailByte (v / 64)
    refine ⟨_, o, _, encodeChar_three (by omega) three (by omega), opened, ?_⟩
    cases opens with
    | three _ _ value remaining next =>
        have bits : o.valueWith (tailByte (v / 64)) = v / 64 := valueWith_tailByte (by omega)
        exact completes_two (by omega) remaining ((next _).mpr (by omega))
    | _ => omega
  · obtain ⟨o, opened, opens, byte⟩ :=
      exists_opens start (n := v / 262144 + 0xf0) (by omega) (by omega)
    have second := toNat_tailByte (v / 64 / 64)
    refine ⟨_, o, _, encodeChar_four (by omega) (by omega), opened, ?_⟩
    cases opens with
    | four _ _ value remaining next =>
        have bits : o.valueWith (tailByte (v / 64 / 64)) = v / 64 / 64 :=
          valueWith_tailByte (by omega)
        exact completes_three (by omega) remaining ((next _).mpr (by omega))
    | _ => omega

end

/-! ## Texts -/

theorem encode_cons (c : Char) (u : Text) :
    encode (c :: u) = String.utf8EncodeChar c ++ encode u :=
  List.flatMap_cons

theorem ascii_iff {byte : UInt8} : byte < 0x80 ↔ byte.toNat < 0x80 :=
  UInt8.lt_iff_toNat_lt

theorem Opens.not_ascii {byte : UInt8} {o : Opening} (opens : Opens byte o) : ¬ byte < 0x80 := by
  rw [ascii_iff]
  cases opens <;> omega

/-- A byte of its own is a character, and no other byte is. -/
theorem decodeFrom_ascii {byte : UInt8} (ascii : byte < 0x80) (offset : Nat) (rest : List UInt8) :
    decodeFrom offset none (byte :: rest) =
      (Char.ofNat byte.toNat :: ·) <$> decodeFrom (offset + 1) none rest := by
  rw [decodeFrom, if_pos ascii]

theorem decodeFrom_opened {byte : UInt8} {offset : Nat} {o : Opening}
    (opened : Opening.ofFirst? offset byte = some o) (rest : List UInt8) :
    decodeFrom offset none (byte :: rest) = decodeFrom (offset + 1) (some o) rest := by
  rw [decodeFrom, if_neg (opens_of_ofFirst? opened).not_ascii, opened]

/-- What is encoded is read back. -/
theorem decodeFrom_encode (offset : Nat) (u : Text) :
    decodeFrom offset none (encode u) = .ok u := by
  induction u generalizing offset with
  | nil => rfl
  | cons c u ih =>
      have same : Char.ofNat c.toNat = c := Char.ofNat_toNat c
      rw [encode_cons]
      by_cases several : 0x80 ≤ c.toNat
      · obtain ⟨byte, o, front, bytes, opened, completes⟩ :=
          exists_completes_encodeChar offset (v := c.toNat) c.valid several
        rw [same] at bytes
        rw [bytes, List.cons_append, decodeFrom_opened opened, decodeFrom_append completes, ih,
          same]
        rfl
      · have one := encodeChar_one (Nat.lt_of_not_le several)
        have toNat : (UInt8.ofNat c.toNat).toNat = c.toNat := by
          rw [UInt8.toNat_ofNat']
          omega
        have ascii : UInt8.ofNat c.toNat < 0x80 := by
          rw [ascii_iff]
          omega
        rw [same] at one
        rw [one, List.singleton_append, decodeFrom_ascii ascii, ih, toNat, same]
        rfl

/-- What is read is encoded by the bytes that it is read from. -/
theorem eq_encode_of_decodeFrom {offset : Nat} {bytes : List UInt8} {u : Text}
    (read : decodeFrom offset none bytes = .ok u) : bytes = encode u := by
  -- a character takes away as many bytes as it has, so the induction is on their number
  induction h : bytes.length using Nat.strongRecOn generalizing offset bytes u with
  | ind n ih =>
      cases bytes with
      | nil =>
          obtain rfl := Except.ok.inj read
          rfl
      | cons byte bytes =>
          by_cases ascii : byte < 0x80
          · rw [decodeFrom_ascii ascii] at read
            obtain ⟨tail, later, rfl⟩ := exists_of_map_cons read
            rw [encode_cons, encodeChar_one (ascii_iff.mp ascii), UInt8.ofNat_toNat,
              List.singleton_append, ← ih _ (h ▸ Nat.lt_succ_self _) later rfl]
          · cases opened : Opening.ofFirst? offset byte with
            | none =>
                rw [decodeFrom, if_neg ascii, opened] at read
                exact nomatch read
            | some o =>
                rw [decodeFrom_opened opened] at read
                obtain ⟨front, v, rest, tail, rfl, completes, rfl, later⟩ := exists_completes read
                have shorter : rest.length < n := by
                  rw [← h, List.length_cons, List.length_append]
                  omega
                rw [encode_cons, encodeChar_of_completes (opens_of_ofFirst? opened) completes,
                  List.cons_append, ← ih _ shorter later rfl]

/-- **Bytes decode exactly if they are an encoding**, and then to the text that they encode. -/
theorem decode_eq_ok_iff {bytes : List UInt8} {u : Text} :
    decode bytes = .ok u ↔ bytes = encode u := by
  constructor
  · exact eq_encode_of_decodeFrom
  · rintro rfl
    exact decodeFrom_encode 0 u

theorem decode_encode (u : Text) : decode (encode u) = .ok u :=
  decode_eq_ok_iff.mpr rfl

/-- Bytes that encode no text are refused. -/
theorem exists_decode_eq_error {bytes : List UInt8} (malformed : ∀ u, bytes ≠ encode u) :
    ∃ e, decode bytes = .error e := by
  cases read : decode bytes with
  | error e => exact ⟨e, rfl⟩
  | ok u => exact absurd (decode_eq_ok_iff.mp read) (malformed u)

/-- A stray byte, an overlong form, a surrogate, a code point beyond the last one, and a
    character that lacks a byte. -/
example : ∀ bytes ∈ [[0x80], [0xc0, 0xaf], [0xed, 0xa0, 0x80], [0xf4, 0x90, 0x80, 0x80],
    [0xe2, 0x82]], (decode bytes).toOption = none := by
  decide

end Pseudocode.Utf8

/-! ## Sources from bytes -/

namespace Pseudocode.Source

theorem ofBytes_encode (text file : Text) :
    ofBytes (Utf8.encode text) file = .ok (.ofText text.unifyLineEnds file) := by
  rw [ofBytes, Utf8.decode_encode]

theorem exists_ofBytes_eq_error {bytes : List UInt8} (malformed : ∀ u, bytes ≠ Utf8.encode u)
    (file : Text) : ∃ e, ofBytes bytes file = .error (.undecodable e) := by
  obtain ⟨e, refused⟩ := Utf8.exists_decode_eq_error malformed
  refine ⟨e, ?_⟩
  rw [ofBytes, refused]

/-- What a source is made of are bytes that encode a text. -/
theorem exists_encode_of_ofBytes {bytes : List UInt8} {file : Text} {src : Source}
    (made : ofBytes bytes file = .ok src) : ∃ text, bytes = Utf8.encode text := by
  rw [ofBytes] at made
  cases decoded : Utf8.decode bytes with
  | error e =>
      rw [decoded] at made
      exact nomatch made
  | ok text => exact ⟨text, Utf8.decode_eq_ok_iff.mp decoded⟩

end Pseudocode.Source
