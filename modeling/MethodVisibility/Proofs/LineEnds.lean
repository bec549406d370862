/-
  Line ends.

  `Text.Unified` says what it means that a text has a line feed for every line end of another one:
  for a carriage return with the line feed after it, and for a carriage return that has none. Each
  text has one such text, which is the one that it is read as (`Text.unified_iff`).

  `LineEnd.written` is a text with its line ends written in one of the three ways. If it has no
  carriage return itself, it is what is read again (`LineEnd.unifyLineEnds_written`). With feeds
  after returns, each pair is one line end; with returns alone, no line feed is left that could
  follow one.
-/
import MethodVisibility.Text.LineEnds

namespace MethodVisibility

namespace Text

/-! ## One line end for all -/

/-- The second text is the first with a line feed for every line end. -/
inductive Unified : List Char → List Char → Prop
  | nil : Unified [] []
  | plain {c : Char} {cs ds : List Char} (other : c ≠ '\r') (rest : Unified cs ds) :
      Unified (c :: cs) (c :: ds)
  | pair {cs ds : List Char} (rest : Unified cs ds) : Unified ('\r' :: '\n' :: cs) ('\n' :: ds)
  | lone {cs ds : List Char} (alone : cs.head? ≠ some '\n') (rest : Unified cs ds) :
      Unified ('\r' :: cs) ('\n' :: ds)

theorem unifyChars_of_ne {c : Char} (h : c ≠ '\r') (cs : List Char) :
    unifyChars (c :: cs) = c :: unifyChars cs :=
  unifyChars.eq_4 c cs (fun _ hc => absurd hc h) h

theorem unifyChars_of_alone {cs : List Char} (h : cs.head? ≠ some '\n') :
    unifyChars ('\r' :: cs) = '\n' :: unifyChars cs :=
  unifyChars.eq_3 cs fun rest hcs => h (by rw [hcs, List.head?_cons])

theorem unified_unifyChars (cs : List Char) : Unified cs (unifyChars cs) := by
  fun_induction unifyChars cs with
  | case1 => exact .nil
  | case2 rest ih => exact .pair ih
  | case3 rest hpair ih =>
    refine .lone (fun hhead => ?_) ih
    obtain ⟨rest', hrest⟩ := List.head?_eq_some_iff.mp hhead
    exact hpair rest' hrest
  | case4 c rest _ hother ih => exact .plain hother ih

/-- A text is read as the one text that has a line feed for every line end of it. -/
theorem unified_iff {cs ds : List Char} : Unified cs ds ↔ unifyChars cs = ds := by
  constructor
  · intro h
    induction h with
    | nil => rfl
    | plain other _ ih => rw [unifyChars_of_ne other, ih]
    | pair _ ih => rw [unifyChars, ih]
    | lone alone _ ih => rw [unifyChars_of_alone alone, ih]
  · rintro rfl
    exact unified_unifyChars cs

theorem unifyLineEnds_eq_iff {text unified : String} :
    unifyLineEnds text = unified ↔ Unified text.toList unified.toList := by
  rw [unified_iff, unifyLineEnds, ← String.toList_inj, String.toList_ofList]

end Text

/-! ## Line ends of one kind -/

/-- The ways to write a line end. -/
inductive LineEnd where
  | lineFeed
  | returnAndFeed
  | carriageReturn
deriving DecidableEq, Repr

namespace LineEnd

/-- The characters of a line end. -/
def chars : LineEnd → List Char
  | .lineFeed => ['\n']
  | .returnAndFeed => ['\r', '\n']
  | .carriageReturn => ['\r']

/-- Characters with this line end for each line feed. -/
def writtenChars (e : LineEnd) (cs : List Char) : List Char :=
  cs.flatMap fun c => if c = '\n' then e.chars else [c]

/-- A text with this line end for each line feed. -/
def written (e : LineEnd) (text : String) : String :=
  String.ofList (e.writtenChars text.toList)

theorem writtenChars_cons (e : LineEnd) (c : Char) (cs : List Char) :
    e.writtenChars (c :: cs) = (if c = '\n' then e.chars else [c]) ++ e.writtenChars cs :=
  List.flatMap_cons

/-- Where carriage returns are the line ends, there are no line feeds. -/
theorem not_mem_writtenChars (cs : List Char) : '\n' ∉ carriageReturn.writtenChars cs := by
  rw [writtenChars, List.mem_flatMap]
  rintro ⟨c, -, hc⟩
  split at hc
  · simp [chars] at hc
  · next hne => exact hne (List.mem_singleton.mp hc).symm

/-- A line end of any kind is unified to a line feed. -/
theorem unified_chars_append (e : LineEnd) {cs ds : List Char}
    (h : Text.Unified (e.writtenChars cs) ds) :
    Text.Unified (e.chars ++ e.writtenChars cs) ('\n' :: ds) := by
  cases e with
  | lineFeed => exact .plain (by decide) h
  | returnAndFeed => exact .pair h
  | carriageReturn =>
    refine .lone (fun hhead => ?_) h
    exact not_mem_writtenChars cs (List.mem_of_mem_head? hhead)

theorem unified_writtenChars (e : LineEnd) {cs : List Char} (h : '\r' ∉ cs) :
    Text.Unified (e.writtenChars cs) cs := by
  induction cs with
  | nil => exact .nil
  | cons c cs ih =>
    obtain ⟨hc, hcs⟩ : c ≠ '\r' ∧ '\r' ∉ cs := by
      simpa [eq_comm] using h
    rw [writtenChars_cons]
    split
    · next hfeed =>
      rw [hfeed]
      exact e.unified_chars_append (ih hcs)
    · exact .plain hc (ih hcs)

/-- However its line ends are written, a text without carriage returns is read as it is. -/
theorem unifyLineEnds_written (e : LineEnd) {text : String} (h : '\r' ∉ text.toList) :
    Text.unifyLineEnds (e.written text) = text := by
  rw [Text.unifyLineEnds_eq_iff, written, String.toList_ofList]
  exact e.unified_writtenChars h

/-- A line end of each kind, the last of which is no pair with the one before it. -/
example : Text.unifyLineEnds "a\nb\r\nc\r\r\nd" = "a\nb\nc\n\nd" := by
  decide

end LineEnd

end MethodVisibility
