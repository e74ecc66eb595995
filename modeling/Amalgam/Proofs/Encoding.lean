import Amalgam.Text.Utf8

/-!
# Decoding undoes encoding

The reader of bytes looks at ranges of lead and continuation bytes.  The encoding of a character is
given by its code alone.  Here the two are compared.

* `Utf8.Spells` — the bytes that the reader takes for a character, by their number.
* `Utf8.step_of_spells`, `Utf8.exists_spells_of_step` — one step of the reader finds a character
  exactly where bytes spell one.
* `Utf8.Spells.encodes`, `Utf8.spells_encodeChar` — bytes spell a character exactly if they are its
  encoding.
* `Utf8.decode_eq_ok_iff` — so bytes are read as characters exactly if they are the encoding of
  these.
-/

set_option autoImplicit false

namespace Amalgam.Utf8

/-! ## Bytes of a text -/

theorem byteArray_loop_eq (bytes : ByteArray) (i : Nat) (done : List UInt8) :
    ByteArray.toList.loop bytes i done = done.reverse ++ bytes.data.toList.drop i := by
  fun_induction ByteArray.toList.loop bytes i done with
  | case1 i done hi ih =>
    have hlt : i < bytes.data.toList.length := hi
    rw [ih, List.drop_eq_getElem_cons hlt]
    simp [ByteArray.get!, hi]
  | case2 i done hi => rw [List.drop_eq_nil_of_le (by simpa using hi), List.append_nil]

/-- The bytes of a text are those of its characters. -/
theorem encode_ofList (cs : List Char) :
    encode (String.ofList cs) = cs.flatMap String.utf8EncodeChar := by
  show ByteArray.toList.loop cs.utf8Encode 0 [] = _
  rw [byteArray_loop_eq]
  simp [List.utf8Encode]

/-! ## One character -/

/-- The bytes spell the character with this code. -/
inductive Spells : List UInt8 → Nat → Prop where
  | one {a : UInt8} (ha : a.toNat < 0x80) : Spells [a] a.toNat
  | two {a b : UInt8} (ha : 0xC2 ≤ a.toNat) (ha' : a.toNat < 0xE0) (hb : isSecond a b = true) :
      Spells [a, b] ((a.toNat % 0x20) * 0x40 + payload b)
  | three {a b c : UInt8} (ha : 0xE0 ≤ a.toNat) (ha' : a.toNat < 0xF0) (hb : isSecond a b = true)
      (hc : isContinuation c = true) :
      Spells [a, b, c] (((a.toNat % 0x10) * 0x40 + payload b) * 0x40 + payload c)
  | four {a b c d : UInt8} (ha : 0xF0 ≤ a.toNat) (ha' : a.toNat < 0xF5) (hb : isSecond a b = true)
      (hc : isContinuation c = true) (hd : isContinuation d = true) :
      Spells [a, b, c, d] ((((a.toNat % 0x08) * 0x40 + payload b) * 0x40 + payload c) * 0x40 +
        payload d)

/-- The bytes in front spell a character, and its size is their number. -/
theorem step_of_spells {lead : UInt8} {more behind : List UInt8} {code : Nat}
    (h : Spells (lead :: more) code) :
    step lead (more ++ behind) = .char (Char.ofNat code) (more.length + 1) := by
  cases h with
  | one ha => simp [step, ha]
  | two ha ha' hb =>
    have hlow : ¬ lead.toNat < 0x80 := by omega
    have hstart : ¬ (lead.toNat < 0xC2 ∨ 0xF5 ≤ lead.toNat) := by omega
    simp [step, hlow, hstart, hb, ha']
  | three ha ha' hb hc =>
    have hlow : ¬ lead.toNat < 0x80 := by omega
    have hstart : ¬ (lead.toNat < 0xC2 ∨ 0xF5 ≤ lead.toNat) := by omega
    have htwo : ¬ lead.toNat < 0xE0 := by omega
    simp [step, hlow, hstart, htwo, hb, hc, ha']
  | four ha ha' hb hc hd =>
    have hlow : ¬ lead.toNat < 0x80 := by omega
    have hstart : ¬ (lead.toNat < 0xC2 ∨ 0xF5 ≤ lead.toNat) := by omega
    have htwo : ¬ lead.toNat < 0xE0 := by omega
    have hthree : ¬ lead.toNat < 0xF0 := by omega
    simp [step, hlow, hstart, htwo, hthree, hb, hc, hd]

/-- A character is found only where bytes spell one. -/
theorem exists_spells_of_step {lead : UInt8} {rest : List UInt8} {c : Char} {size : Nat}
    (h : step lead rest = .char c size) :
    ∃ more behind code, rest = more ++ behind ∧ size = more.length + 1 ∧
      Spells (lead :: more) code ∧
      c = Char.ofNat code := by
  revert h
  fun_cases step lead rest with
  | case1 rest n ha =>
    rintro ⟨⟩
    exact ⟨[], rest, n, rfl, rfl, .one ha, rfl⟩
  | case5 n hlow hstart b behind hb htwo =>
    rintro ⟨⟩
    have hlead : 0xC2 ≤ n := by simp at hstart; omega
    exact ⟨[b], behind, _, rfl, rfl, .two hlead htwo (by simpa using hb), rfl⟩
  | case8 n hlow hstart b hb htwo c behind hc hthree =>
    rintro ⟨⟩
    exact ⟨[b, c], behind, _, rfl, rfl,
      .three (Nat.not_lt.mp htwo) hthree (by simpa using hb) (by simpa using hc), rfl⟩
  | case11 n hlow hstart b hb htwo c hc hthree d behind hd =>
    rintro ⟨⟩
    have hlead : n < 0xF5 := by simp at hstart; omega
    exact ⟨[b, c, d], behind, _, rfl, rfl,
      .four (Nat.not_lt.mp hthree) hlead (by simpa using hb) (by simpa using hc)
      (by simpa using hd), rfl⟩
  | case2 | case3 | case4 | case6 | case7 | case9 | case10 => nofun

/-- A byte that can follow the first one of a character. -/
theorem isContinuation_iff {b : UInt8} :
    isContinuation b = true ↔ 0x80 ≤ b.toNat ∧ b.toNat < 0xC0 := by
  simp [isContinuation]

theorem isSecond_iff {lead b : UInt8} :
    isSecond lead b = true ↔ (0x80 ≤ b.toNat ∧ b.toNat < 0xC0) ∧
    ¬ (lead.toNat = 0xE0 ∧ b.toNat < 0xA0) ∧
      ¬ (lead.toNat = 0xED ∧ 0xA0 ≤ b.toNat) ∧ ¬ (lead.toNat = 0xF0 ∧ b.toNat < 0x90) ∧
      ¬ (lead.toNat = 0xF4 ∧ 0x90 ≤ b.toNat) := by
  simp [isSecond, isContinuation]
  omega

/-- The code of a character is no surrogate and has at most 21 bits. -/
theorem toNat_ofNat_of_valid {n : Nat} (h : n < 0xD800 ∨ 0xDFFF < n ∧ n < 0x110000) :
    (Char.ofNat n).toNat = n := by
  have hvalid : n.isValidChar := h
  rw [Char.ofNat, dif_pos hvalid]
  rfl

theorem toNat_byte {n : Nat} (h : n < 256) : (UInt8.ofNat n).toNat = n := by
  rw [UInt8.toNat_ofNat']
  exact Nat.mod_eq_of_lt h

/-- What is spelt is the code of a character, and the bytes are its encoding. -/
theorem Spells.encodes {bytes : List UInt8} {code : Nat} (h : Spells bytes code) :
    String.utf8EncodeChar (Char.ofNat code) = bytes := by
  have hbyte : ∀ (b : UInt8) (n : Nat), n = b.toNat → UInt8.ofNat n = b := by
    rintro b _ rfl
    exact UInt8.ofNat_toNat
  cases h with
  | @one a ha =>
    have hcode : (Char.ofNat a.toNat).val.toNat = a.toNat := toNat_ofNat_of_valid (by omega)
    simp only [String.utf8EncodeChar, hcode]
    rw [if_pos (by omega), hbyte a _ rfl]
  | @two a b ha ha' hb =>
    obtain ⟨hb, -⟩ := isSecond_iff.mp hb
    simp only [payload]
    have hcode : (Char.ofNat (a.toNat % 0x20 * 0x40 + b.toNat % 0x40)).val.toNat =
      a.toNat % 0x20 * 0x40 + b.toNat % 0x40 := toNat_ofNat_of_valid (by omega)
    simp only [String.utf8EncodeChar, hcode]
    rw [if_neg (by omega), if_pos (by omega), hbyte a _ (by omega), hbyte b _ (by omega)]
  | @three a b c ha ha' hb hc =>
    obtain ⟨hb, hlong, hsurrogate, -⟩ := isSecond_iff.mp hb
    have hc := isContinuation_iff.mp hc
    simp only [payload]
    have hcode :
        (Char.ofNat ((a.toNat % 0x10 * 0x40 + b.toNat % 0x40) * 0x40 + c.toNat % 0x40)).val.toNat =
      (a.toNat % 0x10 * 0x40 + b.toNat % 0x40) * 0x40 + c.toNat % 0x40 :=
      toNat_ofNat_of_valid (by omega)
    simp only [String.utf8EncodeChar, hcode]
    rw [if_neg (by omega), if_neg (by omega), if_pos (by omega), hbyte a _ (by omega),
      hbyte b _ (by omega), hbyte c _ (by omega)]
  | @four a b c d ha ha' hb hc hd =>
    obtain ⟨hb, -, -, hlong, hlarge⟩ := isSecond_iff.mp hb
    have hc := isContinuation_iff.mp hc
    have hd := isContinuation_iff.mp hd
    simp only [payload]
    have hcode :
        (Char.ofNat (((a.toNat % 0x08 * 0x40 + b.toNat % 0x40) * 0x40 + c.toNat % 0x40) * 0x40 +
        d.toNat % 0x40)).val.toNat =
      ((a.toNat % 0x08 * 0x40 + b.toNat % 0x40) * 0x40 + c.toNat % 0x40) * 0x40 + d.toNat % 0x40 :=
      toNat_ofNat_of_valid (by omega)
    simp only [String.utf8EncodeChar, hcode]
    rw [if_neg (by omega), if_neg (by omega), if_neg (by omega), hbyte a _ (by omega),
      hbyte b _ (by omega), hbyte c _ (by omega), hbyte d _ (by omega)]

/-- The encoding of a character spells it. -/
theorem spells_encodeChar (c : Char) : Spells (String.utf8EncodeChar c) c.toNat := by
  have hvalid : c.toNat < 0xD800 ∨ 0xDFFF < c.toNat ∧ c.toNat < 0x110000 := c.valid
  have hval : c.val.toNat = c.toNat := rfl
  simp only [String.utf8EncodeChar, hval]
  generalize c.toNat = n at hvalid
  split
  · have ha := @toNat_byte n (by omega)
    have hspells := @Spells.one (UInt8.ofNat n) (by omega)
    rwa [ha] at hspells
  · split
    · have ha := @toNat_byte (n / 64 % 32 + 192) (by omega)
      have hb := @toNat_byte (n % 64 + 128) (by omega)
      have hspells :=
        @Spells.two (UInt8.ofNat (n / 64 % 32 + 192)) (UInt8.ofNat (n % 64 + 128)) (by omega)
          (by omega) (isSecond_iff.mpr (by omega))
      rw [payload, ha, hb] at hspells
      rwa [show (n / 64 % 32 + 192) % 0x20 * 0x40 + (n % 64 + 128) % 0x40 = n by omega] at hspells
    · split
      · have ha := @toNat_byte (n / 4096 % 16 + 224) (by omega)
        have hb := @toNat_byte (n / 64 % 64 + 128) (by omega)
        have hc := @toNat_byte (n % 64 + 128) (by omega)
        have hspells :=
          @Spells.three (UInt8.ofNat (n / 4096 % 16 + 224)) (UInt8.ofNat (n / 64 % 64 + 128))
            (UInt8.ofNat (n % 64 + 128)) (by omega) (by omega) (isSecond_iff.mpr (by omega))
            (isContinuation_iff.mpr (by omega))
        rw [payload, payload, ha, hb, hc] at hspells
        rwa [show ((n / 4096 % 16 + 224) % 0x10 * 0x40 + (n / 64 % 64 + 128) % 0x40) * 0x40 +
          (n % 64 + 128) % 0x40 = n by omega] at hspells
      · have ha := @toNat_byte (n / 262144 % 8 + 240) (by omega)
        have hb := @toNat_byte (n / 4096 % 64 + 128) (by omega)
        have hc := @toNat_byte (n / 64 % 64 + 128) (by omega)
        have hd := @toNat_byte (n % 64 + 128) (by omega)
        have hspells :=
          @Spells.four (UInt8.ofNat (n / 262144 % 8 + 240)) (UInt8.ofNat (n / 4096 % 64 + 128))
            (UInt8.ofNat (n / 64 % 64 + 128)) (UInt8.ofNat (n % 64 + 128)) (by omega) (by omega)
            (isSecond_iff.mpr (by omega)) (isContinuation_iff.mpr (by omega))
            (isContinuation_iff.mpr (by omega))
        rw [payload, payload, payload, ha, hb, hc, hd] at hspells
        rwa [show (((n / 262144 % 8 + 240) % 0x08 * 0x40 + (n / 4096 % 64 + 128) % 0x40) * 0x40 +
          (n / 64 % 64 + 128) % 0x40) * 0x40 + (n % 64 + 128) % 0x40 = n by omega] at hspells

/-! ## All characters -/

theorem decodeFrom_skip (skipped bytes : List UInt8) (offset : Nat) :
    decodeFrom offset skipped.length (skipped ++ bytes) =
      decodeFrom (offset + skipped.length) 0 bytes := by
  induction skipped generalizing offset with
  | nil => rfl
  | cons b skipped ih =>
    rw [List.length_cons, List.cons_append, decodeFrom, ih]
    congr 1
    omega

/-- Reading goes on behind a character that is found. -/
theorem decodeFrom_of_spells {lead : UInt8} {more behind : List UInt8} {code : Nat}
    (h : Spells (lead :: more) code) (offset : Nat) :
    decodeFrom offset 0 (lead :: more ++ behind) =
      (decodeFrom (offset + 1 + more.length) 0 behind).map (Char.ofNat code :: ·) := by
  rw [List.cons_append, decodeFrom, step_of_spells h]
  simp only [Nat.add_sub_cancel, decodeFrom_skip]

theorem decodeFrom_encodeChar (c : Char) (behind : List UInt8) (offset : Nat) :
    ∃ later, decodeFrom offset 0 (String.utf8EncodeChar c ++ behind) =
      (decodeFrom later 0 behind).map (c :: ·) := by
  have hspells := spells_encodeChar c
  cases hbytes : String.utf8EncodeChar c with
  | nil => rw [hbytes] at hspells; cases hspells
  | cons lead more =>
    rw [hbytes] at hspells
    exact ⟨_, by rw [decodeFrom_of_spells hspells, Char.ofNat_toNat]⟩

/-- Bytes that are read begin with the encoding of the first character. -/
theorem cases_of_decodeFrom {offset : Nat} {bytes : List UInt8} {cs : List Char}
    (h : decodeFrom offset 0 bytes = .ok cs) :
    (bytes = [] ∧ cs = []) ∨ ∃ c behind later rest, bytes = String.utf8EncodeChar c ++ behind ∧
    cs = c :: rest ∧
      decodeFrom later 0 behind = .ok rest := by
  cases bytes with
  | nil =>
    cases h
    exact Or.inl ⟨rfl, rfl⟩
  | cons lead bytes =>
    cases hstep : step lead bytes with
    | bad why size => simp [decodeFrom, hstep] at h
    | char c size =>
      obtain ⟨more, behind, code, rfl, -, hspells, rfl⟩ := exists_spells_of_step hstep
      rw [← List.cons_append, decodeFrom_of_spells hspells] at h
      cases hrest : decodeFrom (offset + 1 + more.length) 0 behind with
      | error e => rw [hrest] at h; cases h
      | ok rest =>
        rw [hrest] at h
        cases h
        exact Or.inr ⟨_, behind, _, rest, by rw [hspells.encodes, List.cons_append], rfl, hrest⟩

theorem decodeFrom_eq_ok_iff {offset : Nat} {bytes : List UInt8} {cs : List Char} :
    decodeFrom offset 0 bytes = .ok cs ↔ bytes = cs.flatMap String.utf8EncodeChar := by
  induction cs generalizing offset bytes with
  | nil =>
    constructor
    · intro h
      rcases cases_of_decodeFrom h with ⟨rfl, -⟩ | ⟨_, _, _, _, -, hcs, -⟩
      · rfl
      · cases hcs
    · rintro rfl
      rfl
  | cons c cs ih =>
    constructor
    · intro h
      rcases cases_of_decodeFrom h with ⟨-, hcs⟩ | ⟨_, behind, later, _, rfl, hcs, hrest⟩
      · cases hcs
      · cases hcs
        rw [List.flatMap_cons, ← ih.mp hrest]
    · rintro rfl
      obtain ⟨later, hdecode⟩ := decodeFrom_encodeChar c (cs.flatMap String.utf8EncodeChar) offset
      rw [List.flatMap_cons, hdecode, ih.mpr rfl]
      rfl

/-- **Bytes are read as characters exactly if they are the encoding of these.** -/
theorem decode_eq_ok_iff {bytes : List UInt8} {cs : List Char} :
    decode bytes = .ok cs ↔ bytes = encode (String.ofList cs) := by
  rw [encode_ofList]
  exact decodeFrom_eq_ok_iff

/-- A file has a text exactly if its bytes are an encoding; all line ends of the text are
newlines. -/
theorem readText_eq_ok_iff {bytes : List UInt8} {text : String} :
    readText bytes = .ok text ↔ ∃ s, bytes = encode s ∧
    text = String.ofList (unifyNewlines s.toList) := by
  unfold readText
  constructor
  · intro h
    cases hdecode : decode bytes with
    | error e => rw [hdecode] at h; cases h
    | ok cs =>
      rw [hdecode] at h
      cases h
      exact ⟨String.ofList cs, decode_eq_ok_iff.mp hdecode, by rw [String.toList_ofList]⟩
  · rintro ⟨s, rfl, rfl⟩
    have hdecode : decode (encode s) = .ok s.toList :=
      decode_eq_ok_iff.mpr (by rw [String.ofList_toList])
    rw [hdecode]
    rfl

/-- A file has no text exactly if its bytes are the encoding of none. -/
theorem exists_readText_eq_error_iff {bytes : List UInt8} :
    (∃ e, readText bytes = .error e) ↔ ∀ s, bytes ≠ encode s := by
  constructor
  · rintro ⟨e, he⟩ s hs
    cases he.symm.trans (readText_eq_ok_iff.mpr ⟨s, hs, rfl⟩)
  · intro h
    cases hread : readText bytes with
    | error e => exact ⟨e, rfl⟩
    | ok text =>
      obtain ⟨s, hs, -⟩ := readText_eq_ok_iff.mp hread
      exact absurd hs (h s)

end Amalgam.Utf8
