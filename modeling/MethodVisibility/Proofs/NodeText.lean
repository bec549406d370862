/-
  The text of a node, for any span.

  Spans count octets and need not begin or end where characters do. `Placed` is a character with the
  offset at which its octets begin. Of the octets between two offsets some may belong to a character
  that begins before the first one (`cutBefore`), and the second one may lie inside a character
  (`cutAfter`); the characters between are there as a whole (`whole`).

  `shown_window` is an induction on the characters: the window into the octets of the first one is
  empty, a part without its beginning, all of it or a part without its end, and what is left of the
  window lies in the octets of the others.

  `text_of_span`: the text of a node is a replacement for each octet of a character that begins
  before it, the characters in it, and one replacement for a character that it does not complete.
-/
import MethodVisibility.Proofs.Octets
import MethodVisibility.Source

namespace MethodVisibility

/-! ## Characters with their offsets -/

/-- A character of a text and the offset of its first octet. -/
structure Placed where
  start : Nat
  char : Char

namespace Placed

/-- The offset behind the last octet. -/
def stop (x : Placed) : Nat :=
  x.start + x.char.utf8Size

theorem start_lt_stop (x : Placed) : x.start < x.stop := by
  have := Char.utf8Size_pos x.char
  rw [stop]
  omega

/-- The characters of a list, the first of which begins at an offset. -/
def listFrom (start : Nat) : List Char → List Placed
  | [] => []
  | c :: rest => ⟨start, c⟩ :: listFrom (start + c.utf8Size) rest

/-- The characters of a text. -/
def list (text : String) : List Placed :=
  listFrom 0 text.toList

theorem le_start_of_mem {start : Nat} {cs : List Char} {x : Placed} (h : x ∈ listFrom start cs) :
    start ≤ x.start := by
  induction cs generalizing start with
  | nil => cases h
  | cons c rest ih =>
    rcases List.mem_cons.mp h with rfl | h
    · exact Nat.le_refl _
    · exact Nat.le_trans (Nat.le_add_right _ _) (ih h)

/-! ## What lies between two offsets -/

/-- How many octets between the offsets belong to characters that begin before the first one. -/
def cutBefore (xs : List Placed) (i j : Nat) : Nat :=
  (List.range' i (j - i)).countP fun k =>
    xs.any fun x => x.start < i && (x.start ≤ k && k < x.stop)

/-- The characters that have all their octets between the offsets. -/
def whole (xs : List Placed) (i j : Nat) : List Char :=
  (xs.filter fun x => i ≤ x.start && x.stop ≤ j).map (·.char)

/-- Whether a character begins between the offsets and ends behind the second one. -/
def cutAfter (xs : List Placed) (i j : Nat) : Bool :=
  xs.any fun x => i ≤ x.start && x.start < j && j < x.stop

/-- What is shown of the octets between the offsets. -/
def shown (xs : List Placed) (i j : Nat) : List Char :=
  List.replicate (cutBefore xs i j) Utf8.replacement ++ whole xs i j ++
    if cutAfter xs i j then [Utf8.replacement] else []

variable {x : Placed} {xs : List Placed} {i j : Nat}

/-- None of characters that begin later. -/
theorem cutBefore_of_le (h : ∀ x ∈ xs, i ≤ x.start) : cutBefore xs i j = 0 := by
  rw [cutBefore, List.countP_eq_zero]
  intro k _
  rw [List.any_eq_true]
  rintro ⟨x, hx, hcut⟩
  have := h x hx
  simp at hcut
  omega

theorem countP_lt_range' (m i n : Nat) :
    (List.range' i n).countP (fun k => k < m) = min n (m - i) := by
  induction n generalizing i with
  | zero => simp
  | succ n ih =>
    rw [List.range'_succ, List.countP_cons, ih]
    by_cases h : i < m
    · simp [h]
      omega
    · simp [h]
      omega

/-- Of one character only the octets before its end. -/
theorem cutBefore_cons_of_inside (hstart : x.start < i) (h : ∀ y ∈ xs, i ≤ y.start) :
    cutBefore (x :: xs) i j = min (j - i) (x.stop - i) := by
  rw [← countP_lt_range', cutBefore]
  apply List.countP_congr
  intro k hk
  have hi : i ≤ k := (List.mem_range'_1.mp hk).1
  have hnone : (xs.any fun y => y.start < i && (y.start ≤ k && k < y.stop)) = false := by
    rw [List.any_eq_false]
    intro y hy
    have := h y hy
    simp
    omega
  rw [List.any_cons, hnone]
  simp
  omega

/-! ## What is shown, character by character -/

/-- Nothing of what lies ahead of the offsets. -/
theorem shown_eq_nil (h : ∀ x ∈ xs, i ≤ x.start ∧ j ≤ x.start) : shown xs i j = [] := by
  have hwhole : whole xs i j = [] := by
    rw [whole, List.map_eq_nil_iff, List.filter_eq_nil_iff]
    intro x hx
    have := h x hx
    have := x.start_lt_stop
    simp
    omega
  have hafter : cutAfter xs i j = false := by
    rw [cutAfter, List.any_eq_false]
    intro x hx
    have := h x hx
    simp
    omega
  rw [shown, cutBefore_of_le fun x hx => (h x hx).1, hwhole, hafter]
  rfl

/-- A character before the offsets. -/
theorem shown_cons_of_stop_le (h : x.stop ≤ i) : shown (x :: xs) i j = shown xs i j := by
  have hlt := x.start_lt_stop
  have hbefore : cutBefore (x :: xs) i j = cutBefore xs i j := by
    rw [cutBefore, cutBefore]
    apply List.countP_congr
    intro k hk
    have hi : i ≤ k := (List.mem_range'_1.mp hk).1
    have hout : ¬ k < x.stop := by omega
    rw [List.any_cons]
    simp [hout]
  have hnot : ¬ i ≤ x.start := by omega
  simp [shown, hbefore, whole, cutAfter, hnot]

/-- A character that begins before the offsets and ends behind the first one. -/
theorem shown_cons_of_inside (hstart : x.start < i) (hrest : ∀ y ∈ xs, i ≤ y.start) :
    shown (x :: xs) i j =
      List.replicate (min (j - i) (x.stop - i)) Utf8.replacement ++ shown xs i j := by
  have hnot : ¬ i ≤ x.start := by omega
  rw [shown, shown, cutBefore_cons_of_inside hstart hrest, cutBefore_of_le hrest]
  simp [whole, cutAfter, hnot]

/-- A character between the offsets. -/
theorem shown_cons_of_whole (hstart : i ≤ x.start) (hstop : x.stop ≤ j)
    (hrest : ∀ y ∈ xs, i ≤ y.start) : shown (x :: xs) i j = x.char :: shown xs i j := by
  have hall : ∀ y ∈ x :: xs, i ≤ y.start := List.forall_mem_cons.mpr ⟨hstart, hrest⟩
  have hnot : ¬ j < x.stop := by omega
  rw [shown, shown, cutBefore_of_le hall, cutBefore_of_le hrest]
  simp [whole, cutAfter, hstart, hstop, hnot]

/-- A character that begins between the offsets and ends behind them. -/
theorem shown_cons_of_cut (hi : i ≤ x.start) (hj : x.start < j) (hstop : j < x.stop)
    (hrest : ∀ y ∈ xs, x.stop ≤ y.start) : shown (x :: xs) i j = [Utf8.replacement] := by
  have hall : ∀ y ∈ x :: xs, i ≤ y.start := by
    refine List.forall_mem_cons.mpr ⟨hi, fun y hy => ?_⟩
    have := hrest y hy
    omega
  have hnone : shown xs i j = [] := by
    refine shown_eq_nil fun y hy => ?_
    have := hrest y hy
    omega
  rw [shown, cutBefore_of_le fun y hy => hall y (List.mem_cons_of_mem _ hy)] at hnone
  have hwhole : whole xs i j = [] := (List.append_eq_nil_iff.mp hnone).1
  have hnot : ¬ x.stop ≤ j := by omega
  rw [whole] at hwhole
  rw [shown, cutBefore_of_le hall]
  simp [whole, cutAfter, hi, hj, hstop, hnot, hwhole]

end Placed

/-! ## Windows into the octets -/

namespace Utf8

open Placed

/-- The octets between two offsets, if the first of the octets is at an offset of its own. -/
def window (start i j : Nat) (octets : List UInt8) : List UInt8 :=
  (octets.drop (i - start)).take (j - max i start)

variable {start i j : Nat} {octets rest : List UInt8}

/-- A window is one into the first octets and one into the others. -/
theorem window_append :
    window start i j (octets ++ rest) =
      window start i j octets ++ window (start + octets.length) i j rest := by
  have hstart : i - start - octets.length = i - (start + octets.length) := by omega
  have hstop : j - max i start - (octets.length - (i - start)) =
      j - max i (start + octets.length) := by
    omega
  rw [window, List.drop_append, List.take_append, List.length_drop, hstart, hstop]
  rfl

theorem window_eq_nil (h : j ≤ start ∨ start + octets.length ≤ i) :
    window start i j octets = [] := by
  rcases h with h | h
  · rw [window, Nat.sub_eq_zero_of_le (by omega), List.take_zero]
  · rw [window, List.drop_eq_nil_of_le (by omega), List.take_nil]

theorem window_eq_take (h : i ≤ start) : window start i j octets = octets.take (j - start) := by
  rw [window, Nat.sub_eq_zero_of_le h, List.drop_zero, Nat.max_eq_right h]

theorem length_window : (window start i j octets).length =
    min (j - max i start) (octets.length - (i - start)) := by
  rw [window, List.length_take, List.length_drop]

/-- A window that begins inside a character has nothing of it but octets with which none starts. -/
theorem isTail_of_mem_window {c : Char} (h : start < i) {b : UInt8}
    (hb : b ∈ window start i j (String.utf8EncodeChar c)) : IsTail b :=
  isTail_of_mem_drop (by omega) (List.mem_of_mem_take hb)

/-- What is shown of a window is a replacement for every octet of a character that is cut in front,
    the characters that are whole, and one replacement for a character that is cut behind. -/
theorem shown_window (cs : List Char) (start i j : Nat) :
    (pieces (window start i j (cs.flatMap String.utf8EncodeChar))).map Piece.shown =
      shown (listFrom start cs) i j := by
  induction cs generalizing start with
  | nil =>
    rw [listFrom, shown_eq_nil (by simp), List.flatMap_nil, window, List.drop_nil, List.take_nil]
    rfl
  | cons c cs ih =>
    let x : Placed := ⟨start, c⟩
    have hlength := String.length_utf8EncodeChar c
    have hrest : ∀ y ∈ listFrom (start + c.utf8Size) cs, x.stop ≤ y.start := fun y =>
      le_start_of_mem
    have hnext := ih (start + c.utf8Size)
    have hlist : listFrom start (c :: cs) = x :: listFrom (start + c.utf8Size) cs := rfl
    have hstop : x.stop = start + c.utf8Size := rfl
    rw [List.flatMap_cons, window_append, hlength, hlist]
    rcases Nat.lt_or_ge i x.stop with hi | hi
    · rcases Nat.lt_or_ge start i with hcut | hstart
      · -- the window begins inside the character
        have hwidth : (window start i j (String.utf8EncodeChar c)).length =
            min (j - i) (x.stop - i) := by
          rw [length_window, hlength]
          omega
        rw [shown_cons_of_inside hcut fun y hy => Nat.le_trans (Nat.le_of_lt hi) (hrest y hy),
          ← hnext, pieces, piecesFrom_stray (fun b => isTail_of_mem_window hcut), hwidth,
          List.map_append, List.map_replicate]
        rfl
      · rw [window_eq_take hstart]
        rcases Nat.lt_or_ge start j with hj | hj
        · rcases Nat.lt_or_ge j x.stop with hend | hend
          · -- it ends inside the character
            rw [shown_cons_of_cut hstart hj hend hrest, window_eq_nil (.inl (by omega)),
              List.append_nil, pieces_take_encodeChar (by omega) (by omega)]
            rfl
          · rw [shown_cons_of_whole hstart hend fun y hy => by have := hrest y hy; omega, ← hnext,
              List.take_of_length_le (by omega), pieces, piecesFrom_encodeChar]
            rfl
        · have hahead : ∀ y ∈ x :: listFrom (start + c.utf8Size) cs,
              i ≤ y.start ∧ j ≤ y.start := by
            refine List.forall_mem_cons.mpr ⟨⟨hstart, hj⟩, fun y hy => ?_⟩
            have := hrest y hy
            omega
          rw [shown_eq_nil hahead, Nat.sub_eq_zero_of_le hj, List.take_zero,
            window_eq_nil (.inl (by omega))]
          rfl
    · rw [shown_cons_of_stop_le hi, window_eq_nil (.inr (by omega)), List.nil_append, hnext]

theorem length_encode (text : String) : (encode text).length = text.utf8ByteSize := by
  rw [String.utf8ByteSize, ← String.utf8Encode_toList, List.utf8Encode, List.size_toByteArray,
    encode]

theorem encode_append (s t : String) : encode (s ++ t) = encode s ++ encode t := by
  rw [encode, String.toList_append, List.flatMap_append, encode, encode]

end Utf8

/-- The text of a node of any span, in a source of any text. It is one replacement for each octet in
    the span that belongs to a character that begins before it, then the characters that have all
    their octets in the span, then one replacement if a character begins in the span that ends
    behind it. It is empty if the span ends where it starts or before. If it starts and ends
    between characters, it is just what stands there. -/
theorem text_of_span (text : String) (n : Node) :
    let i := n.label.span.startByte
    let j := n.label.span.endByte
    let xs := Placed.list text
    ((Source.ofText text).text n).toList =
        List.replicate (Placed.cutBefore xs i j) Utf8.replacement ++ Placed.whole xs i j ++
          (if Placed.cutAfter xs i j then [Utf8.replacement] else []) ∧
      (j ≤ i → (Source.ofText text).text n = "") ∧
      ∀ before inside after : String, text = before ++ inside ++ after →
        i = before.utf8ByteSize → j = (before ++ inside).utf8ByteSize →
        (Source.ofText text).text n = inside := by
  intro i j xs
  have hslice : (Source.ofText text).text n =
      Utf8.decodeLossy ((Utf8.encode text).extract i j) := by
    simp [Source.text, Source.slice, Source.ofText, i, j]
  refine ⟨?_, ?_, ?_⟩
  · have hwindow : (Utf8.encode text).extract i j = Utf8.window 0 i j (Utf8.encode text) := by
      rw [Utf8.window, List.extract_eq_take_drop, Nat.max_eq_left (Nat.zero_le i), Nat.sub_zero]
    rw [hslice, Utf8.decodeLossy, String.toList_ofList, hwindow]
    exact Utf8.shown_window text.toList 0 i j
  · intro hempty
    rw [hslice, List.extract_eq_take_drop, Nat.sub_eq_zero_of_le hempty, List.take_zero]
    rfl
  · intro before inside after htext hi hj
    have hoctets : (Utf8.encode text).extract i j = Utf8.encode inside := by
      rw [htext, hi, hj, String.utf8ByteSize_append, ← Utf8.length_encode, ← Utf8.length_encode]
      simp [Utf8.encode_append, List.extract_eq_take_drop]
    rw [hslice, hoctets, Utf8.decodeLossy_encode]

/-- Two characters of two and three octets, the first without its beginning and the second without
    its end. -/
example : (Source.ofText "é€").slice 1 4 = "\uFFFD\uFFFD" := by
  decide +kernel

end MethodVisibility
