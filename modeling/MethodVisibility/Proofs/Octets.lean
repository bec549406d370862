/-
  The octets of a character.

  A character of more than one octet is a first octet and one octet for each further digit of its
  value in base 64 (`Utf8.tails`). The machine is `Partial.Inside` a value when the bits that it has
  read are the leading digits, and the next digit lies in the range that it expects. An octet of the
  value keeps this (`Partial.Inside.advance`), and the first octet of a character brings it about
  (`Utf8.shape`); both rest on a character being no surrogate and below the last code point.

  So the machine reads a whole character as that character (`Utf8.piecesFrom_encodeChar`), the
  beginning of one as one stretch that is cut off (`Utf8.pieces_take_encodeChar`), and what is left
  of one without its beginning as one stretch for each octet (`Utf8.piecesFrom_stray`).

  `decodeLossy_encode`: what is decoded from the octets of a text is the text.
-/
import Mathlib.Algebra.Order.Ring.Nat
import MethodVisibility.Text.Utf8

namespace MethodVisibility.Utf8

/-! ## Digits -/

/-- The octet of the digit `k` of a value. -/
def tail (v k : Nat) : UInt8 :=
  UInt8.ofNat (v / 64 ^ k % 64 + 0x80)

/-- The octets of the last digits of a value. -/
def tails (v : Nat) : Nat → List UInt8
  | 0 => []
  | k + 1 => tail v k :: tails v k

theorem toNat_tail (v k : Nat) : (tail v k).toNat = v / 64 ^ k % 64 + 0x80 := by
  rw [tail, UInt8.toNat_ofNat']
  have := Nat.mod_lt (v / 64 ^ k) (by decide : 0 < 64)
  omega

theorem length_tails (v k : Nat) : (tails v k).length = k := by
  induction k with
  | zero => rfl
  | succ k ih => rw [tails, List.length_cons, ih]

/-- An octet with which no character starts, but with which one may go on. -/
def IsTail (octet : UInt8) : Prop :=
  0x80 ≤ octet.toNat ∧ octet.toNat < 0xC0

theorem isTail_of_mem_tails {v k : Nat} {b : UInt8} (h : b ∈ tails v k) : IsTail b := by
  induction k with
  | zero => cases h
  | succ k ih =>
    rcases List.mem_cons.mp h with rfl | h
    · rw [IsTail, toNat_tail]
      have := Nat.mod_lt (v / 64 ^ k) (by decide : 0 < 64)
      omega
    · exact ih h

/-! ## The machine inside a character -/

/-- The machine has read the leading digits of a value and goes on with the next one. -/
structure Partial.Inside (p : Partial) (v : Nat) : Prop where
  bits : p.bits = v / 64 ^ (p.due + 1)
  low : p.low ≤ v / 64 ^ p.due % 64 + 0x80
  high : v / 64 ^ p.due % 64 + 0x80 ≤ p.high

namespace Partial.Inside

variable {p : Partial} {v : Nat}

theorem accepts (h : p.Inside v) : p.accepts (tail v p.due) = true := by
  simp [Partial.accepts, toNat_tail, h.low, h.high]

theorem bitsWith (h : p.Inside v) : p.bitsWith (tail v p.due) = v / 64 ^ p.due := by
  have hdigits : v / 64 ^ (p.due + 1) = v / 64 ^ p.due / 64 := by
    rw [pow_succ, Nat.div_div_eq_div_mul]
  rw [Partial.bitsWith, toNat_tail, h.bits, hdigits]
  omega

theorem advance (h : p.Inside v) {k : Nat} (hdue : p.due = k + 1) :
    (p.advance (tail v p.due)).Inside v := by
  have hnext : (p.advance (tail v p.due)).due = k := by
    rw [Partial.advance, hdue, Nat.add_sub_cancel]
  have hdigit := Nat.mod_lt (v / 64 ^ k) (by decide : 0 < 64)
  refine ⟨?_, ?_, ?_⟩
  · rw [hnext, ← hdue]
    exact h.bitsWith
  · rw [hnext]
    exact Nat.le_add_left _ _
  · rw [hnext]
    change v / 64 ^ k % 64 + 0x80 ≤ 0xBF
    omega

/-- The octets that are due complete the character. -/
theorem piecesFrom_tails (h : p.Inside v) (rest : List UInt8) :
    piecesFrom (some p) (tails v (p.due + 1) ++ rest) =
      .char (Char.ofNat v) :: piecesFrom none rest := by
  generalize hk : p.due = k
  induction k generalizing p with
  | zero =>
    have hbits := h.bitsWith
    have haccepts := h.accepts
    rw [hk] at hbits haccepts
    rw [tails, List.cons_append, piecesFrom, if_pos haccepts, if_pos hk, hbits, pow_zero,
      Nat.div_one]
    rfl
  | succ k ih =>
    have haccepts := h.accepts
    have hadvance := h.advance hk
    rw [hk] at haccepts hadvance
    rw [tails, List.cons_append, piecesFrom, if_pos haccepts, if_neg (by omega)]
    refine ih hadvance ?_
    rw [Partial.advance, hk, Nat.add_sub_cancel]

/-- If not all of them come, the character is cut off. -/
theorem piecesFrom_take_tails (h : p.Inside v) {j : Nat} (hj : j ≤ p.due) :
    piecesFrom (some p) ((tails v (p.due + 1)).take j) = [.bad (p.taken + j) .cutOff] := by
  induction j generalizing p with
  | zero => rfl
  | succ j ih =>
    obtain ⟨k, hk⟩ : ∃ k, p.due = k + 1 := ⟨p.due - 1, by omega⟩
    have hadvance := h.advance hk
    have hnext : (p.advance (tail v p.due)).due = k := by
      rw [Partial.advance, hk, Nat.add_sub_cancel]
    have hrest := ih hadvance (by omega)
    rw [hnext, ← hk] at hrest
    rw [tails, List.take_succ_cons, piecesFrom, if_pos h.accepts, if_neg (by omega), hrest]
    simp [Partial.advance]
    omega

end Partial.Inside

/-! ## The first octet -/

/-- How the octets of a character begin. -/
inductive Shape (c : Char) : List UInt8 → Prop
  | single {octet : UInt8} (size : c.utf8Size = 1) (first : start octet = .done (.char c)) :
      Shape c [octet]
  | several {octet : UInt8} {p : Partial} (size : c.utf8Size = p.due + 2) (taken : p.taken = 1)
      (first : start octet = .more p) (inside : p.Inside c.toNat) :
      Shape c (octet :: tails c.toNat (p.due + 1))

/-- A first octet of two. -/
theorem start_two {v : Nat} (hlow : 0x80 ≤ v) (hhigh : v ≤ 0x7FF) :
    ∃ p, start (UInt8.ofNat (v / 64 % 32 + 192)) = .more p ∧ p.due = 0 ∧ p.taken = 1 ∧
      p.Inside v := by
  have hb : (UInt8.ofNat (v / 64 % 32 + 192)).toNat = v / 64 + 192 := by
    rw [UInt8.toNat_ofNat']
    omega
  refine ⟨⟨1, v / 64, 0, 0x80, 0xBF⟩, ?_, rfl, rfl, ⟨rfl, ?_, ?_⟩⟩
  · simp only [start, hb]
    rw [if_neg (by omega), if_neg (by omega), if_pos (by omega), Nat.add_sub_cancel]
  · simp
  · simp
    omega

/-- A first octet of three. After the least one and after the one before the surrogates the range is
    smaller. -/
theorem start_three {v : Nat} (hlow : 0x800 ≤ v) (hhigh : v ≤ 0xFFFF)
    (hvalid : v < 0xD800 ∨ 0xDFFF < v) :
    ∃ p, start (UInt8.ofNat (v / 4096 % 16 + 224)) = .more p ∧ p.due = 1 ∧ p.taken = 1 ∧
      p.Inside v := by
  have hb : (UInt8.ofNat (v / 4096 % 16 + 224)).toNat = v / 4096 + 224 := by
    rw [UInt8.toNat_ofNat']
    omega
  rcases (by omega : v / 4096 = 0 ∨ v / 4096 = 0xD ∨ v / 4096 ≠ 0 ∧ v / 4096 ≠ 0xD) with
    hzero | hsurrogate | ⟨hzero, hsurrogate⟩
  · refine ⟨⟨1, 0, 1, 0xA0, 0xBF⟩, ?_, rfl, rfl, ⟨?_, ?_, ?_⟩⟩
    · simp [start, hzero]
    all_goals simp
    all_goals omega
  · refine ⟨⟨1, 0xD, 1, 0x80, 0x9F⟩, ?_, rfl, rfl, ⟨?_, ?_, ?_⟩⟩
    · simp [start, hsurrogate]
    all_goals simp
    all_goals omega
  · refine ⟨⟨1, v / 4096, 1, 0x80, 0xBF⟩, ?_, rfl, rfl, ⟨?_, ?_, ?_⟩⟩
    · simp only [start, hb]
      rw [if_neg (by omega), if_neg (by omega), if_neg (by omega), if_neg (by omega),
        if_neg (by omega), if_pos (by omega), Nat.add_sub_cancel]
    all_goals simp
    omega

/-- A first octet of four. After the least and after the greatest one the range is smaller. -/
theorem start_four {v : Nat} (hlow : 0x10000 ≤ v) (hhigh : v < 0x110000) :
    ∃ p, start (UInt8.ofNat (v / 262144 % 8 + 240)) = .more p ∧ p.due = 2 ∧ p.taken = 1 ∧
      p.Inside v := by
  have hb : (UInt8.ofNat (v / 262144 % 8 + 240)).toNat = v / 262144 + 240 := by
    rw [UInt8.toNat_ofNat']
    omega
  rcases (by omega : v / 262144 = 0 ∨ v / 262144 = 4 ∨ 0 < v / 262144 ∧ v / 262144 < 4) with
    hzero | hlast | ⟨hzero, hlast⟩
  · refine ⟨⟨1, 0, 2, 0x90, 0xBF⟩, ?_, rfl, rfl, ⟨?_, ?_, ?_⟩⟩
    · simp [start, hzero]
    all_goals simp
    all_goals omega
  · refine ⟨⟨1, 4, 2, 0x80, 0x8F⟩, ?_, rfl, rfl, ⟨?_, ?_, ?_⟩⟩
    · simp [start, hlast]
    all_goals simp
    all_goals omega
  · refine ⟨⟨1, v / 262144, 2, 0x80, 0xBF⟩, ?_, rfl, rfl, ⟨?_, ?_, ?_⟩⟩
    · simp only [start, hb]
      rw [if_neg (by omega), if_neg (by omega), if_neg (by omega), if_neg (by omega),
        if_neg (by omega), if_neg (by omega), if_neg (by omega), if_pos (by omega),
        Nat.add_sub_cancel]
    all_goals simp
    omega

/-- A character of several octets, by its first one. -/
theorem Shape.of_start {c : Char} {octet : UInt8} {octets : List UInt8} {due : Nat}
    (hoctets : octets = octet :: tails c.toNat (due + 1)) (hsize : octets.length = c.utf8Size)
    (hstart : ∃ p, start octet = .more p ∧ p.due = due ∧ p.taken = 1 ∧ p.Inside c.toNat) :
    Shape c octets := by
  obtain ⟨p, hfirst, rfl, htaken, hinside⟩ := hstart
  rw [hoctets, List.length_cons, length_tails] at hsize
  rw [hoctets]
  exact .several hsize.symm htaken hfirst hinside

theorem shape (c : Char) : Shape c (String.utf8EncodeChar c) := by
  have hvalid : c.toNat < 0xD800 ∨ 0xDFFF < c.toNat ∧ c.toNat < 0x110000 := c.valid
  have hsize := String.length_utf8EncodeChar c
  have hval : c.val.toNat = c.toNat := rfl
  unfold String.utf8EncodeChar at hsize ⊢
  dsimp only at hsize ⊢
  rw [hval] at hsize ⊢
  split at hsize
  · next h =>
    rw [if_pos h]
    refine .single hsize.symm ?_
    have hb : (UInt8.ofNat c.toNat).toNat = c.toNat := by
      rw [UInt8.toNat_ofNat']
      omega
    simp only [start, hb]
    rw [if_pos (by omega), Char.ofNat_toNat]
  · next h =>
    rw [if_neg h]
    split at hsize
    · next h2 =>
      rw [if_pos h2]
      exact .of_start (by simp [tails, tail]) hsize (start_two (by omega) h2)
    · next h2 =>
      rw [if_neg h2]
      split at hsize
      · next h3 =>
        rw [if_pos h3]
        exact .of_start (by simp [tails, tail]) hsize (start_three (by omega) h3 (by omega))
      · next h3 =>
        rw [if_neg h3]
        exact .of_start (by simp [tails, tail]) hsize (start_four (by omega) (by omega))

/-! ## Characters and parts of characters -/

/-- A whole character is read as that character. -/
theorem piecesFrom_encodeChar (c : Char) (rest : List UInt8) :
    piecesFrom none (String.utf8EncodeChar c ++ rest) = .char c :: piecesFrom none rest := by
  have hshape := shape c
  generalize String.utf8EncodeChar c = octets at hshape ⊢
  cases hshape with
  | single _ first => rw [List.singleton_append, piecesFrom, first]
  | several _ _ first inside =>
    rw [List.cons_append, piecesFrom, first]
    simp only
    rw [inside.piecesFrom_tails, Char.ofNat_toNat]

/-- The beginning of a character is one stretch. -/
theorem pieces_take_encodeChar {c : Char} {j : Nat} (hpos : 0 < j) (hlt : j < c.utf8Size) :
    pieces ((String.utf8EncodeChar c).take j) = [.bad j .cutOff] := by
  obtain ⟨j, rfl⟩ : ∃ k, j = k + 1 := ⟨j - 1, by omega⟩
  have hshape := shape c
  generalize String.utf8EncodeChar c = octets at hshape ⊢
  cases hshape with
  | single size => omega
  | several size taken first inside =>
    rw [pieces, List.take_succ_cons, piecesFrom, first]
    simp only
    rw [inside.piecesFrom_take_tails (by omega), taken, Nat.add_comm]

/-- What a character leaves without its beginning. -/
theorem isTail_of_mem_drop {c : Char} {i : Nat} (hpos : 0 < i) {b : UInt8}
    (hb : b ∈ (String.utf8EncodeChar c).drop i) : IsTail b := by
  obtain ⟨i, rfl⟩ : ∃ k, i = k + 1 := ⟨i - 1, by omega⟩
  have hshape := shape c
  generalize String.utf8EncodeChar c = octets at hshape hb
  cases hshape with
  | single => simp at hb
  | several =>
    rw [List.drop_succ_cons] at hb
    exact isTail_of_mem_tails (List.mem_of_mem_drop hb)

/-- Octets with which no character starts are stretches of their own. -/
theorem piecesFrom_stray {octets : List UInt8} (h : ∀ b ∈ octets, IsTail b) (rest : List UInt8) :
    piecesFrom none (octets ++ rest) =
      List.replicate octets.length (.bad 1 .badStart) ++ piecesFrom none rest := by
  induction octets with
  | nil => rfl
  | cons b octets ih =>
    have hb := h b List.mem_cons_self
    have hstart : start b = .done (.bad 1 .badStart) := by
      rw [IsTail] at hb
      simp only [start]
      rw [if_neg (by omega), if_pos (by omega)]
    rw [List.cons_append, piecesFrom, hstart]
    simp only
    rw [ih fun d hd => h d (List.mem_cons_of_mem _ hd)]
    rfl

/-! ## Texts -/

theorem pieces_encode (text : String) : pieces (encode text) = text.toList.map .char := by
  rw [encode]
  induction text.toList with
  | nil => rfl
  | cons c rest ih =>
    rw [pieces] at ih ⊢
    rw [List.flatMap_cons, piecesFrom_encodeChar, ih, List.map_cons]

/-- What is decoded from the octets of a text is the text. -/
theorem decodeLossy_encode (text : String) : decodeLossy (encode text) = text := by
  have hshown : (text.toList.map Piece.char).map Piece.shown = text.toList := by
    rw [List.map_map]
    exact List.map_id _
  rw [decodeLossy, pieces_encode, hshown, String.ofList_toList]

end MethodVisibility.Utf8
