/-
  Octets that are a text.

  `Octets` follows a character through the machine; here the machine is followed back. What it
  reads as a character after a first octet are the digits of a value that it is inside all the way
  (`Partial.Usual.exists_inside`). The first octet and how many are due after it are settled by the
  value (`Lead.unique`), which is one of a character (`lead_of_start`). A character of that value
  has such a first octet too, so its octets are those that were read (`encodeChar_of_start`).

  `decode_eq_ok_iff`: octets are decoded without a defect just if they are those of a text, and to
  that text.
-/
import MethodVisibility.Proofs.Octets
import MethodVisibility.Text.Encoding

namespace MethodVisibility

namespace Utf8

/-! ## Digits that are read -/

/-- The next octet is to be one with which no character starts. -/
structure Partial.Usual (p : Partial) : Prop where
  low : 0x80 ≤ p.low
  high : p.high ≤ 0xBF

theorem Partial.usual_advance (p : Partial) (octet : UInt8) : (p.advance octet).Usual :=
  ⟨Nat.le_refl _, Nat.le_refl _⟩

namespace Partial.Usual

variable {p : Partial}

/-- An octet that is accepted is the digit of a value that has the bits so far in front of it. -/
theorem inside (h : p.Usual) {b : UInt8} (haccepts : p.accepts b = true) {v : Nat}
    (hbits : p.bitsWith b = v / 64 ^ p.due) : p.Inside v ∧ tail v p.due = b := by
  obtain ⟨hlow, hhigh⟩ : p.low ≤ b.toNat ∧ b.toNat ≤ p.high := by
    simpa [Partial.accepts] using haccepts
  have := h.low
  have := h.high
  have hdigits : v / 64 ^ (p.due + 1) = v / 64 ^ p.due / 64 := by
    rw [pow_succ, Nat.div_div_eq_div_mul]
  rw [Partial.bitsWith] at hbits
  have hdigit : v / 64 ^ p.due % 64 + 0x80 = b.toNat := by
    rw [← hbits]
    omega
  refine ⟨⟨?_, ?_, ?_⟩, ?_⟩
  · rw [hdigits, ← hbits]
    omega
  · rw [hdigit]
    exact hlow
  · rw [hdigit]
    exact hhigh
  · rw [← UInt8.toNat_inj, toNat_tail, hdigit]

/-- What is read as a character are the digits of its value. -/
theorem exists_inside (h : p.Usual) {octets : List UInt8} {c : Char} {ps : List Piece}
    (hread : piecesFrom (some p) octets = .char c :: ps) :
    ∃ v rest, p.Inside v ∧ octets = tails v (p.due + 1) ++ rest ∧ c = Char.ofNat v ∧
      piecesFrom none rest = ps := by
  induction octets generalizing p with
  | nil => simp [piecesFrom] at hread
  | cons b octets ih =>
    rw [piecesFrom] at hread
    split at hread
    · next haccepts =>
      split at hread
      · next hdue =>
        obtain ⟨hchar, hrest⟩ := List.cons.inj hread
        have hbits : p.bitsWith b = p.bitsWith b / 64 ^ p.due := by
          rw [hdue, pow_zero, Nat.div_one]
        obtain ⟨hinside, htail⟩ := h.inside haccepts hbits
        refine ⟨p.bitsWith b, octets, hinside, ?_, (Piece.char.inj hchar).symm, hrest⟩
        rw [tails, htail, hdue]
        rfl
      · next hdue =>
        obtain ⟨v, rest, hinside, hoctets, hchar, hrest⟩ := ih (p.usual_advance b) hread
        have hnext : (p.advance b).due + 1 = p.due := Nat.sub_add_cancel (Nat.pos_of_ne_zero hdue)
        have hbits : p.bitsWith b = v / 64 ^ p.due := by
          rw [← hnext]
          exact hinside.bits
        rw [hnext] at hoctets
        obtain ⟨hinside, htail⟩ := h.inside haccepts hbits
        refine ⟨v, rest, hinside, ?_, hchar, hrest⟩
        rw [tails, htail, hoctets, List.cons_append]
    · cases hread

end Partial.Usual

/-! ## First octets of values -/

/-- The first octet of a value and the number of octets that are due after the next one. -/
inductive Lead (v : Nat) : Nat → Nat → Prop
  | two {b : Nat} (digit : b = v / 64 + 0xC0) (low : 0x80 ≤ v) (high : v < 0x800) : Lead v b 0
  | three {b : Nat} (digit : b = v / 4096 + 0xE0) (low : 0x800 ≤ v) (high : v < 0x10000)
      (valid : v < 0xD800 ∨ 0xDFFF < v) : Lead v b 1
  | four {b : Nat} (digit : b = v / 262144 + 0xF0) (low : 0x10000 ≤ v) (high : v < 0x110000) :
      Lead v b 2

namespace Lead

variable {v b d b' d' : Nat}

theorem unique (h : Lead v b d) (h' : Lead v b' d') : b = b' ∧ d = d' := by
  cases h <;> cases h' <;> omega

theorem isValidChar (h : Lead v b d) : v.isValidChar := by
  cases h <;> rw [Nat.isValidChar] <;> omega

theorem le (h : Lead v b d) : 0x80 ≤ v := by
  cases h <;> omega

end Lead

theorem toNat_ofNat_of_isValidChar {v : Nat} (h : v.isValidChar) : (Char.ofNat v).toNat = v := by
  rw [Char.ofNat, dif_pos h]
  rfl

/-- What a first octet tells: it is a character, or none starts with it, or others are due. Then the
    next one is to be a usual one, and the octet is that of every value that the machine is inside
    after it. -/
inductive First (b : UInt8) : Start → Prop
  | char (low : b.toNat < 0x80) : First b (.done (.char (Char.ofNat b.toNat)))
  | bad : First b (.done (.bad 1 .badStart))
  | more {p : Partial} (usual : p.Usual) (lead : ∀ v, p.Inside v → Lead v b.toNat p.due) :
      First b (.more p)

/-- Others are due: what the bits and the range of the next octet say of a value. -/
theorem First.of_lead {b : UInt8} {bits due low high : Nat} (hlow : 0x80 ≤ low)
    (hhigh : high ≤ 0xBF) (lead : ∀ v, bits = v / 64 ^ (due + 1) → low ≤ v / 64 ^ due % 64 + 0x80 →
      v / 64 ^ due % 64 + 0x80 ≤ high → Lead v b.toNat due) :
    First b (.more ⟨1, bits, due, low, high⟩) :=
  .more ⟨hlow, hhigh⟩ fun v h => lead v h.bits h.low h.high

theorem first_start (b : UInt8) : First b (start b) := by
  rw [start]
  by_cases hascii : b.toNat < 0x80
  · rw [if_pos hascii]
    exact .char hascii
  rw [if_neg hascii]
  by_cases htail : b.toNat < 0xC2
  · rw [if_pos htail]
    exact .bad
  rw [if_neg htail]
  by_cases htwo : b.toNat < 0xE0
  · rw [if_pos htwo]
    refine .of_lead (by omega) (by omega) fun v hbits hlow hhigh => ?_
    exact .two (by omega) (by omega) (by omega)
  rw [if_neg htwo]
  by_cases hleast : b.toNat = 0xE0
  · rw [if_pos hleast]
    refine .of_lead (by omega) (by omega) fun v hbits hlow hhigh => ?_
    exact .three (by omega) (by omega) (by omega) (by omega)
  rw [if_neg hleast]
  by_cases hsurrogates : b.toNat = 0xED
  · rw [if_pos hsurrogates]
    refine .of_lead (by omega) (by omega) fun v hbits hlow hhigh => ?_
    exact .three (by omega) (by omega) (by omega) (by omega)
  rw [if_neg hsurrogates]
  by_cases hthree : b.toNat < 0xF0
  · rw [if_pos hthree]
    refine .of_lead (by omega) (by omega) fun v hbits hlow hhigh => ?_
    exact .three (by omega) (by omega) (by omega) (by omega)
  rw [if_neg hthree]
  by_cases hsupplement : b.toNat = 0xF0
  · rw [if_pos hsupplement]
    refine .of_lead (by omega) (by omega) fun v hbits hlow hhigh => ?_
    exact .four (by omega) (by omega) (by omega)
  rw [if_neg hsupplement]
  by_cases hfour : b.toNat < 0xF4
  · rw [if_pos hfour]
    refine .of_lead (by omega) (by omega) fun v hbits hlow hhigh => ?_
    exact .four (by omega) (by omega) (by omega)
  rw [if_neg hfour]
  by_cases hlast : b.toNat = 0xF4
  · rw [if_pos hlast]
    refine .of_lead (by omega) (by omega) fun v hbits hlow hhigh => ?_
    exact .four (by omega) (by omega) (by omega)
  rw [if_neg hlast]
  exact .bad

theorem lead_of_start {b : UInt8} {p : Partial} (h : start b = .more p) :
    p.Usual ∧ ∀ v, p.Inside v → Lead v b.toNat p.due := by
  have hfirst := first_start b
  rw [h] at hfirst
  cases hfirst with
  | more usual lead => exact ⟨usual, lead⟩

/-- An octet that is a character by itself. -/
theorem toNat_of_start_char {b : UInt8} {c : Char} (h : start b = .done (.char c)) :
    c.toNat = b.toNat ∧ b.toNat < 0x80 := by
  have hfirst := first_start b
  rw [h] at hfirst
  cases hfirst with
  | char low => exact ⟨toNat_ofNat_of_isValidChar (.inl (by omega)), low⟩

/-! ## Octets of characters -/

/-- A character by itself is that octet. -/
theorem encodeChar_of_start_char {b : UInt8} {c : Char} (h : start b = .done (.char c)) :
    String.utf8EncodeChar c = [b] := by
  obtain ⟨hc, hlow⟩ := toNat_of_start_char h
  have hshape := shape c
  generalize String.utf8EncodeChar c = octets at hshape ⊢
  cases hshape with
  | single _ first =>
    have hsame := (toNat_of_start_char first).1
    rw [UInt8.toNat_inj.mp (hsame.symm.trans hc)]
  | several _ _ first inside =>
    have := ((lead_of_start first).2 _ inside).le
    omega

/-- The first octet and the digits of a value are a character. -/
theorem encodeChar_of_start {b : UInt8} {p : Partial} {v : Nat} (h : start b = .more p)
    (hinside : p.Inside v) :
    String.utf8EncodeChar (Char.ofNat v) = b :: tails v (p.due + 1) := by
  have hlead := (lead_of_start h).2 v hinside
  have hv : (Char.ofNat v).toNat = v := toNat_ofNat_of_isValidChar hlead.isValidChar
  have hshape := shape (Char.ofNat v)
  generalize String.utf8EncodeChar (Char.ofNat v) = octets at hshape ⊢
  cases hshape with
  | single _ first =>
    have := toNat_of_start_char first
    have := hlead.le
    omega
  | several _ _ first inside =>
    rw [hv] at inside ⊢
    obtain ⟨hb, hdue⟩ := ((lead_of_start first).2 v inside).unique hlead
    rw [UInt8.toNat_inj.mp hb, hdue]

/-! ## Octets of texts -/

theorem piecesFrom_some_ne_nil (p : Partial) (octets : List UInt8) :
    piecesFrom (some p) octets ≠ [] := by
  induction octets generalizing p with
  | nil => simp [piecesFrom]
  | cons b octets ih =>
    rw [piecesFrom]
    split
    · split
      · exact List.cons_ne_nil _ _
      · exact ih _
    · exact List.cons_ne_nil _ _

/-- Octets that are read as characters only are the octets of these. -/
theorem eq_flatMap_of_piecesFrom {octets : List UInt8} {cs : List Char}
    (h : piecesFrom none octets = cs.map .char) : octets = cs.flatMap String.utf8EncodeChar := by
  induction cs generalizing octets with
  | nil =>
    cases octets with
    | nil => rfl
    | cons b octets =>
      rw [piecesFrom] at h
      split at h
      · cases h
      · exact absurd h (piecesFrom_some_ne_nil _ _)
  | cons c cs ih =>
    cases octets with
    | nil => cases h
    | cons b octets =>
      rw [piecesFrom, List.map_cons] at h
      rw [List.flatMap_cons]
      split at h
      · next piece hstart =>
        obtain ⟨rfl, hrest⟩ := List.cons.inj h
        rw [encodeChar_of_start_char hstart, ← ih hrest]
        rfl
      · next p hstart =>
        obtain ⟨v, rest, hinside, hoctets, rfl, hrest⟩ :=
          (lead_of_start hstart).1.exists_inside h
        rw [encodeChar_of_start hstart hinside, ← ih hrest, hoctets, List.cons_append]

theorem charsOf_chars (position : Nat) (cs : List Char) :
    charsOf position (cs.map .char) = .ok cs := by
  induction cs generalizing position with
  | nil => rfl
  | cons c cs ih =>
    rw [List.map_cons, charsOf, ih]
    rfl

theorem eq_chars_of_charsOf {position : Nat} {ps : List Piece} {cs : List Char}
    (h : charsOf position ps = .ok cs) : ps = cs.map .char := by
  induction ps generalizing position cs with
  | nil =>
    cases h
    rfl
  | cons piece ps ih =>
    cases piece with
    | bad width flaw => cases h
    | char c =>
      rw [charsOf] at h
      cases hrest : charsOf (position + c.utf8Size) ps with
      | error d =>
        rw [hrest] at h
        cases h
      | ok ds =>
        rw [hrest] at h
        cases h
        rw [ih hrest, List.map_cons]

theorem encode_injective : Function.Injective encode := by
  intro s t h
  rw [← decodeLossy_encode s, h, decodeLossy_encode]

/-- Octets are decoded without a defect just if they are the octets of a text, and to that text. -/
theorem decode_eq_ok_iff {octets : List UInt8} {text : String} :
    decode octets = .ok text ↔ octets = encode text := by
  constructor
  · intro h
    rw [decode] at h
    cases hchars : charsOf 0 (pieces octets) with
    | error d =>
      rw [hchars] at h
      cases h
    | ok cs =>
      rw [hchars] at h
      cases h
      rw [encode, String.toList_ofList]
      exact eq_flatMap_of_piecesFrom (eq_chars_of_charsOf hchars)
  · rintro rfl
    rw [decode, pieces_encode, charsOf_chars]
    exact congrArg Except.ok String.ofList_toList

end Utf8

/-- A file in UTF-8 is read just if its octets are those of a text. -/
theorem Encoding.decode_utf8_eq_ok_iff {octets : List UInt8} {text : String} :
    Encoding.utf8.decode octets = .ok text ↔ octets = Utf8.encode text := by
  rw [← Utf8.decode_eq_ok_iff, Encoding.decode, Encoding.decodeUtf8]
  cases Utf8.decode octets <;> simp

/-- An overlong form of a slash, and the octets of a surrogate. -/
example : Utf8.decode [0xC0, 0xAF] = .error ⟨0, 1, .badStart⟩ ∧
    Utf8.decode [0x61, 0xED, 0xA0, 0x80] = .error ⟨1, 1, .badContinuation⟩ := by
  decide

end MethodVisibility
