/-
  Files are resolved as the texts that they hold.

  What decides is said without the functions that look it up. `Path.Supported` takes the name of a
  path apart at its last point. `FileSystem.Leads` is the way along the parts of a path, with one
  rule for each kind of part and one for links, and `FileSystem.Holds` says that a path can be read
  as a file of these octets. `Settings.ReadsUtf8` is that the encoding is UTF-8, by any of its
  names.

  `FileSystem.Outcome` has one case for each way in which reading a path can end, each with all that
  comes before it in the order of the checks: the extension, the way to the file, its size, its
  octets. Reading ends in one of them (`FileSystem.outcome_read`).

  `files_resolved_as_texts`: each kind of error just if its cause is there and no earlier one is,
  and otherwise the resolution of the text with unified line ends. So the way in which a text has
  its line ends written makes no difference.
-/
import MethodVisibility.Proofs.Coverage
import MethodVisibility.Proofs.InStep
import MethodVisibility.Proofs.LineEnds
import MethodVisibility.Proofs.NodeText
import MethodVisibility.Proofs.NormalSettings
import MethodVisibility.Proofs.StrictDecoding

namespace MethodVisibility

/-! ## Extensions -/

namespace Path

/-- The last point of the name has something before it, and with what stands behind it, in lower
    case, is an extension of files that are read. -/
def Supported (p : Path) : Prop :=
  ∃ stem rest : String, stem ≠ "" ∧ rest ≠ "" ∧ '.' ∉ rest.toList ∧
    p.name = stem ++ "." ++ rest ∧ Text.lower ("." ++ rest) ∈ supportedExtensions

theorem extensionOf_of_lastPoint {stem rest : List Char} (hstem : stem ≠ []) (hrest : rest ≠ [])
    (hplain : '.' ∉ rest) : extensionOf (stem ++ '.' :: rest) = '.' :: rest := by
  unfold extensionOf
  rw [Text.takeWhile_lastPoint _ hplain, Text.dropWhile_lastPoint _ hplain]
  cases hr : rest.reverse with
  | nil => exact absurd (List.reverse_eq_nil_iff.mp hr) hrest
  | cons r rs =>
    cases hs : stem.reverse with
    | nil => exact absurd (List.reverse_eq_nil_iff.mp hs) hstem
    | cons x xs =>
      simp only
      rw [← hr, List.reverse_reverse]

/-- A name has no extension, or one from its last point on. -/
theorem extensionOf_cases (name : List Char) :
    extensionOf name = [] ∨ ∃ stem rest, stem ≠ [] ∧ rest ≠ [] ∧ '.' ∉ rest ∧
      name = stem ++ '.' :: rest := by
  unfold extensionOf
  split
  · next c cs d x xs hbehind hfrom =>
    right
    obtain ⟨rest, hplain, hname, hrest⟩ := Text.exists_lastPoint hfrom
    rw [hbehind] at hrest
    refine ⟨(x :: xs).reverse, rest, by simp, ?_, hplain, hname⟩
    rintro rfl
    cases hrest
  · exact .inl rfl

theorem isSupported_eq (p : Path) : p.isSupported =
    decide (Text.lower (.ofList (extensionOf p.name.toList)) ∈ supportedExtensions) := by
  unfold isSupported
  rfl

theorem isSupported_iff (p : Path) : p.isSupported = true ↔ p.Supported := by
  rw [isSupported_eq, decide_eq_true_iff]
  constructor
  · intro hext
    rcases extensionOf_cases p.name.toList with hnone | ⟨stem, rest, hstem, hrest, hplain, hname⟩
    · rw [hnone] at hext
      exact absurd hext (by decide +kernel)
    · rw [hname, extensionOf_of_lastPoint hstem hrest hplain] at hext
      have hpoint : String.ofList ('.' :: rest) = "." ++ String.ofList rest := by
        rw [← String.toList_inj]
        simp
      rw [hpoint] at hext
      refine ⟨.ofList stem, .ofList rest, by simpa using hstem, by simpa using hrest,
        by simpa using hplain, ?_, hext⟩
      rw [← String.toList_inj, hname]
      simp
  · rintro ⟨stem, rest, hstem, hrest, hplain, hname, hext⟩
    have hparts : p.name.toList = stem.toList ++ '.' :: rest.toList := by
      rw [hname]
      simp
    have hpoint : String.ofList ('.' :: rest.toList) = "." ++ rest := by
      rw [← String.toList_inj]
      simp
    rw [hparts, extensionOf_of_lastPoint (by simpa using hstem) (by simpa using hrest) hplain,
      hpoint]
    exact hext

/-- A point in front makes no extension, and a Kelvin sign is a letter of one. -/
example : (Path.ofText "lib/.rb").isSupported = false ∧
    (Path.ofText "tasks.tar.RA\u212AE").isSupported = true := by
  decide +kernel

end Path

/-! ## The way to a file -/

namespace FileSystem

variable {fs : FileSystem} {octets : List UInt8}

/-- From a place, parts lead to an entry through so many links at most. Each part but two points
    goes down from a directory that may be looked into, if it is not too long; two points go up
    from one, and from the root back to it. A link goes on to its target, from the root or from
    the directory in which it stands. -/
inductive Leads (fs : FileSystem) : Nat → List String → List String → DiskEntry → Prop
  | here {links : Nat} {place : List String} {e : DiskEntry}
      (entry : fs.inode? place = some (.entry e)) : Leads fs links place [] e
  | down {links size : Nat} {readable : Bool} {place rest : List String} {part : String}
      {e : DiskEntry} (directory : fs.inode? place = some (.entry (.directory size readable true)))
      (part_ne : part ≠ "..") (short : part.utf8ByteSize ≤ partLimit)
      (below : Leads fs links (place ++ [part]) rest e) : Leads fs links place (part :: rest) e
  | up {links size : Nat} {readable : Bool} {place rest : List String} {e : DiskEntry}
      (directory : fs.inode? place = some (.entry (.directory size readable true)))
      (above : Leads fs links place.dropLast rest e) : Leads fs links place (".." :: rest) e
  | through {links : Nat} {place parts : List String} {target : Path} {e : DiskEntry}
      (link : fs.inode? place = some (.link target))
      (beyond : Leads fs links (target.origin place.dropLast) (target.parts ++ parts) e) :
      Leads fs (links + 1) place parts e

/-- A path can be read as a file of these octets. -/
structure Holds (fs : FileSystem) (path : Path) (octets : List UInt8) : Prop where
  short : path.text.utf8ByteSize < pathLimit
  leads : fs.Leads linkLimit (path.origin fs.workPlace) path.parts (.file octets true)

/-- Parts are followed where they lead, if links are. -/
theorem followWith_eq_ok_iff {links : Nat} {e : DiskEntry}
    {jump : List String → List String → Except AccessError DiskEntry}
    (hjump : ∀ place parts,
      jump place parts = .ok e ↔ ∃ fewer, links = fewer + 1 ∧ fs.Leads fewer place parts e)
    {place parts : List String} :
    fs.followWith jump place parts = .ok e ↔ fs.Leads links place parts e := by
  induction parts generalizing place with
  | nil =>
    rw [followWith]
    constructor
    · intro h
      split at h
      · cases h
      · next target hlink =>
        obtain ⟨fewer, rfl, hbeyond⟩ := (hjump _ _).mp h
        refine .through hlink ?_
        rwa [List.append_nil]
      · next hentry =>
        cases h
        exact .here hentry
    · intro h
      cases h with
      | here entry => rw [entry]
      | through link beyond =>
        rw [link]
        rw [List.append_nil] at beyond
        exact (hjump _ _).mpr ⟨_, rfl, beyond⟩
  | cons part rest ih =>
    rw [followWith]
    constructor
    · intro h
      split at h
      · cases h
      · next target hlink =>
        obtain ⟨fewer, rfl, hbeyond⟩ := (hjump _ _).mp h
        exact .through hlink hbeyond
      · cases h
      · next size readable searchable hdirectory =>
        cases searchable with
        | false => cases h
        | true =>
          rw [if_neg (by decide)] at h
          split at h
          · next hpart =>
            subst hpart
            exact .up hdirectory (ih.mp h)
          · next hpart =>
            split at h
            · cases h
            · next hshort => exact .down hdirectory hpart (Nat.le_of_not_lt hshort) (ih.mp h)
    · intro h
      cases h with
      | down directory part_ne short below =>
        rw [directory]
        simp only [Bool.not_true, Bool.false_eq_true, if_false]
        rw [if_neg part_ne, if_neg (Nat.not_lt.mpr short), ih]
        exact below
      | up directory above =>
        rw [directory]
        simp only [Bool.not_true, Bool.false_eq_true, if_false, if_true]
        exact ih.mpr above
      | through link beyond =>
        rw [link]
        exact (hjump _ _).mpr ⟨_, rfl, beyond⟩

theorem follow_eq_ok_iff {links : Nat} {place parts : List String} {e : DiskEntry} :
    fs.follow links place parts = .ok e ↔ fs.Leads links place parts e := by
  induction links generalizing place parts with
  | zero => exact followWith_eq_ok_iff (by simp)
  | succ links ih => exact followWith_eq_ok_iff (by simp [ih])

theorem find_eq_ok_file_iff {path : Path} :
    fs.find path = .ok (.file octets true) ↔ fs.Holds path octets := by
  unfold find
  constructor
  · intro h
    split at h
    · cases h
    · next hshort => exact ⟨Nat.lt_of_not_le hshort, follow_eq_ok_iff.mp h⟩
  · rintro ⟨hshort, hleads⟩
    rw [if_neg (Nat.not_le.mpr hshort)]
    exact follow_eq_ok_iff.mpr hleads

/-- A link to itself leads nowhere, and nothing is found behind a directory that may not be looked
    into. -/
example : (Disk.mount [(["loop.rb"], .link ⟨"", ["loop.rb"]⟩)] []).find ⟨"/", ["loop.rb"]⟩ =
      .error .tooManyLinks ∧
    (Disk.mount [(["d"], .entry (.directory 40 true false)), (["d", "x.rb"], .file [])] []).find
      ⟨"", ["d", "x.rb"]⟩ = .error .denied := by
  decide

/-- A path can be read as one file at most. -/
theorem Holds.unique {path : Path} {others : List UInt8} (h : fs.Holds path octets)
    (h' : fs.Holds path others) : octets = others := by
  have hsame := (find_eq_ok_file_iff.mpr h).symm.trans (find_eq_ok_file_iff.mpr h')
  cases hsame
  rfl

end FileSystem

/-! ## What a path is read as -/

/-- The encoding is UTF-8. -/
structure Settings.ReadsUtf8 (s : Settings) : Prop where
  plain : '\x00' ∉ s.encoding.toList
  named : Encoding.ofName? s.encoding = some .utf8

/-- By this name the encoding is UTF-8. -/
theorem Settings.readsUtf8_of_encoding {s : Settings} (h : s.encoding = "utf-8") :
    s.ReadsUtf8 where
  plain := by
    rw [h]
    decide
  named := by
    rw [h]
    decide +kernel

/-- The errors that say that a path has no input: it cannot be read, it is too large or it is no
    text. -/
def FileError.isInput : FileError → Bool
  | .refused _ _ => true
  | .tooLarge _ _ _ => true
  | .undecodable _ _ => true
  | _ => false

namespace FileSystem

variable {fs : FileSystem} {s : Settings} {path : Path}

/-- How reading a path ends, and why. -/
inductive Outcome (fs : FileSystem) (s : Settings) (path : Path) : Except FileError String → Prop
  | unsupported (other : ¬ path.Supported) : Outcome fs s path (.error (.unsupported path))
  | unreadable {e : FileError} (supported : path.Supported)
      (unheld : ∀ octets, ¬ fs.Holds path octets) (input : e.isInput = true) :
      Outcome fs s path (.error e)
  | tooLarge {octets : List UInt8} (supported : path.Supported) (held : fs.Holds path octets)
      (large : s.sizeLimit < octets.length) :
      Outcome fs s path (.error (.tooLarge path octets.length s.sizeLimit))
  | undecodable {octets : List UInt8} {e : DecodeError} (supported : path.Supported)
      (held : fs.Holds path octets) (fits : octets.length ≤ s.sizeLimit)
      (bad : ∀ text, octets ≠ Utf8.encode text) :
      Outcome fs s path (.error (.undecodable path e))
  | text {text unified : String} (supported : path.Supported)
      (held : fs.Holds path (Utf8.encode text)) (fits : (Utf8.encode text).length ≤ s.sizeLimit)
      (lines : Text.Unified text.toList unified.toList) : Outcome fs s path (.ok unified)

theorem outcome_textOf (hutf8 : s.ReadsUtf8) {octets : List UInt8} (supported : path.Supported)
    (held : fs.Holds path octets) (fits : octets.length ≤ s.sizeLimit) :
    Outcome fs s path (s.textOf path octets) := by
  rw [Settings.textOf, hutf8.named]
  simp only
  cases hdecode : Encoding.utf8.decode octets with
  | error e =>
    refine .undecodable supported held fits fun text htext => ?_
    rw [Encoding.decode_utf8_eq_ok_iff.mpr htext] at hdecode
    cases hdecode
  | ok text =>
    obtain rfl := Encoding.decode_utf8_eq_ok_iff.mp hdecode
    exact .text supported held fits (Text.unifyLineEnds_eq_iff.mp rfl)

theorem not_holds_of_find (h : ∀ octets, fs.find path ≠ .ok (.file octets true)) :
    ∀ octets, ¬ fs.Holds path octets := fun octets held =>
  h octets (find_eq_ok_file_iff.mpr held)

/-- Reading a path ends in one of the ways. -/
theorem outcome_read (hutf8 : s.ReadsUtf8) (hplain : '\x00' ∉ path.text.toList) :
    Outcome fs s path (fs.read s path) := by
  have hnul : path.text.toList.contains '\x00' = false := by simpa using hplain
  have hencoding : s.encoding.toList.contains '\x00' = false := by simpa using hutf8.plain
  rw [FileSystem.read, hnul]
  cases hsupported : path.isSupported with
  | false => exact .unsupported (by simp [← path.isSupported_iff, hsupported])
  | true =>
    have supported := path.isSupported_iff.mp hsupported
    cases hfind : fs.find path with
    | error cause => exact .unreadable supported (not_holds_of_find (by simp [hfind])) rfl
    | ok e =>
      simp only [Bool.not_true, Bool.false_eq_true, if_false]
      cases e with
      | directory size readable searchable =>
        have unheld : ∀ octets, ¬ fs.Holds path octets := not_holds_of_find (by simp [hfind])
        split
        · exact .unreadable supported unheld rfl
        · rw [DiskEntry.read, hencoding]
          exact .unreadable supported unheld rfl
      | file octets readable =>
        cases readable with
        | false =>
          have unheld : ∀ octets, ¬ fs.Holds path octets := not_holds_of_find (by simp [hfind])
          split
          · exact .unreadable supported unheld rfl
          · rw [DiskEntry.read, hencoding]
            exact .unreadable supported unheld rfl
        | true =>
          have held := find_eq_ok_file_iff.mp hfind
          split
          · next large => exact .tooLarge supported held large
          · next fits =>
            rw [DiskEntry.read, hencoding]
            exact outcome_textOf hutf8 supported held (Int.not_lt.mp fits)

/-! ## Each way and its cause -/

/-- There is an error of the extension just if the extension is not supported. -/
theorem Outcome.unsupported_iff {result : Except FileError String}
    (h : Outcome fs s path result) :
    (∃ p, result = .error (.unsupported p)) ↔ ¬ path.Supported := by
  cases h with
  | unsupported other => exact iff_of_true ⟨path, rfl⟩ other
  | unreadable supported _ input =>
    refine iff_of_false ?_ (not_not.mpr supported)
    rintro ⟨p, hp⟩
    rw [Except.error.inj hp] at input
    cases input
  | tooLarge supported => exact iff_of_false (by simp) (not_not.mpr supported)
  | undecodable supported => exact iff_of_false (by simp) (not_not.mpr supported)
  | text supported => exact iff_of_false (by simp) (not_not.mpr supported)

/-- There is no input just if there is no file, or it is too large, or it is no text. -/
theorem Outcome.isInput_iff {result : Except FileError String}
    (h : Outcome fs s path result) (hsupported : path.Supported) :
    (∃ e : FileError, e.isInput = true ∧ result = .error e) ↔
      (∀ octets, ¬ fs.Holds path octets) ∨ ∃ octets, fs.Holds path octets ∧
        (s.sizeLimit < octets.length ∨ ∀ text, octets ≠ Utf8.encode text) := by
  cases h with
  | unsupported other => exact absurd hsupported other
  | unreadable _ unheld input => exact iff_of_true ⟨_, input, rfl⟩ (.inl unheld)
  | tooLarge _ held large => exact iff_of_true ⟨_, rfl, rfl⟩ (.inr ⟨_, held, .inl large⟩)
  | undecodable _ held _ bad => exact iff_of_true ⟨_, rfl, rfl⟩ (.inr ⟨_, held, .inr bad⟩)
  | @text text _ _ held fits =>
    refine iff_of_false (by simp) ?_
    rintro (unheld | ⟨octets, hoctets, large | bad⟩)
    · exact unheld _ held
    · rw [hoctets.unique held] at large
      omega
    · exact bad text (hoctets.unique held)

/-- A file that is too large is said to be too large, whatever its octets are. -/
theorem Outcome.eq_tooLarge {result : Except FileError String} (h : Outcome fs s path result)
    (hsupported : path.Supported) {octets : List UInt8} (hheld : fs.Holds path octets)
    (hlarge : s.sizeLimit < octets.length) :
    result = .error (.tooLarge path octets.length s.sizeLimit) := by
  cases h with
  | unsupported other => exact absurd hsupported other
  | unreadable _ unheld => exact absurd hheld (unheld octets)
  | tooLarge _ held => rw [held.unique hheld]
  | undecodable _ held fits =>
    rw [held.unique hheld] at fits
    omega
  | text _ held fits =>
    rw [held.unique hheld] at fits
    omega

/-- A text within the limit is read with unified line ends. -/
theorem Outcome.eq_unified {result : Except FileError String} (h : Outcome fs s path result)
    (hsupported : path.Supported) {text : String} (hheld : fs.Holds path (Utf8.encode text))
    (hfits : (Utf8.encode text).length ≤ s.sizeLimit) :
    result = .ok (Text.unifyLineEnds text) := by
  cases h with
  | unsupported other => exact absurd hsupported other
  | unreadable _ unheld => exact absurd hheld (unheld _)
  | tooLarge _ held large =>
    rw [held.unique hheld] at large
    omega
  | undecodable _ held _ bad => exact absurd (held.unique hheld) (bad text)
  | text _ held _ lines =>
    obtain rfl := Utf8.encode_injective (held.unique hheld)
    rw [Text.unifyLineEnds_eq_iff.mpr lines]

end FileSystem

/-! ## Files and texts -/

/-- Every text is resolved, to the same records and remarks under any label. -/
theorem exists_resolveText (s : Settings) (parse : Parser) (text : String) :
    ∃ records diagnostics, ∀ label,
      resolveText s parse text label = .ok ⟨records, diagnostics, label⟩ := by
  obtain ⟨records, hresolved⟩ :=
    (s.context text).exists_resolveTree none (parse text).root
  exact ⟨records, _, hresolved⟩

/-- A file has an error of a file just if it cannot be read. -/
theorem resolveFile_eq_error_iff {s : Settings} {parse : Parser} {fs : FileSystem} {path : Path}
    {e : FileError} :
    resolveFile s parse fs path = .error (.file e) ↔ fs.read s path = .error e := by
  rw [resolveFile]
  cases fs.read s path with
  | error e' => simp
  | ok text =>
    obtain ⟨records, diagnostics, hresolved⟩ := exists_resolveText s parse text
    simp [hresolved]

/-- In UTF-8, a file is resolved as the text that it holds.

    There is an error of the extension just if the path has none that is supported, whatever files
    there are. With a supported one, there is an error of the input just if the path cannot be read
    as a file, or its octets are more than the limit or not those of a text; more octets than the
    limit are said to be too many whatever they are. Otherwise the result is that of the text with
    a line feed for every line end, under the path as label.

    So a text without carriage returns is resolved to the same records and remarks from all files
    that hold it with line ends of one kind. -/
theorem files_resolved_as_texts (s : Settings) (hutf8 : s.ReadsUtf8) (parse : Parser) :
    (∀ (fs : FileSystem) (path : Path), '\x00' ∉ path.text.toList →
      ((∃ p, resolveFile s parse fs path = .error (.file (.unsupported p))) ↔
        ¬ path.Supported) ∧
      (path.Supported →
        ((∃ e : FileError, e.isInput = true ∧ resolveFile s parse fs path = .error (.file e)) ↔
          (∀ octets, ¬ fs.Holds path octets) ∨ ∃ octets, fs.Holds path octets ∧
            (s.sizeLimit < octets.length ∨ ∀ text, octets ≠ Utf8.encode text)) ∧
        ∀ octets, fs.Holds path octets →
          (s.sizeLimit < octets.length → resolveFile s parse fs path =
            .error (.file (.tooLarge path octets.length s.sizeLimit))) ∧
          (octets.length ≤ s.sizeLimit → ∀ text, octets = Utf8.encode text →
            ∃ unified resolution, Text.Unified text.toList unified.toList ∧
              resolveText s parse unified (some path.text) = .ok resolution ∧
              resolveFile s parse fs path = .ok resolution))) ∧
    ∀ text : String, '\r' ∉ text.toList → ∃ records diagnostics,
      (∀ label, resolveText s parse text label = .ok ⟨records, diagnostics, label⟩) ∧
      ∀ (lineEnd : LineEnd) (fs : FileSystem) (path : Path), '\x00' ∉ path.text.toList →
        path.Supported → fs.Holds path (Utf8.encode (lineEnd.written text)) →
        (Utf8.encode (lineEnd.written text)).length ≤ s.sizeLimit →
        resolveFile s parse fs path = .ok ⟨records, diagnostics, some path.text⟩ := by
  refine ⟨fun fs path hplain => ?_, fun text hreturn => ?_⟩
  · have houtcome : fs.Outcome s path (fs.read s path) := FileSystem.outcome_read hutf8 hplain
    simp only [resolveFile_eq_error_iff]
    refine ⟨houtcome.unsupported_iff, fun hsupported => ⟨houtcome.isInput_iff hsupported, ?_⟩⟩
    intro octets hheld
    refine ⟨houtcome.eq_tooLarge hsupported hheld, ?_⟩
    rintro hfits text rfl
    obtain ⟨records, diagnostics, hresolved⟩ :=
      exists_resolveText s parse (Text.unifyLineEnds text)
    refine ⟨_, _, Text.unifyLineEnds_eq_iff.mp rfl, hresolved _, ?_⟩
    rw [resolveFile, houtcome.eq_unified hsupported hheld hfits]
    exact hresolved _
  · obtain ⟨records, diagnostics, hresolved⟩ := exists_resolveText s parse text
    refine ⟨records, diagnostics, hresolved, ?_⟩
    intro lineEnd fs path hplain hsupported hheld hfits
    have houtcome : fs.Outcome s path (fs.read s path) := FileSystem.outcome_read hutf8 hplain
    rw [resolveFile, houtcome.eq_unified hsupported hheld hfits,
      lineEnd.unifyLineEnds_written hreturn]
    exact hresolved _

/-- A bare directive and a definition under it. -/
def shortText : String :=
  "private\ndef x; end\n"

/-- The text in two files, with line ends of two kinds, and a link to one of them. -/
def shortFiles : FileSystem :=
  Disk.mount [(["lib", "point.RB"], .file (Utf8.encode (LineEnd.returnAndFeed.written shortText))),
    (["old.rb"], .file (Utf8.encode (LineEnd.carriageReturn.written shortText))),
    (["new.rb"], .link ⟨"", ["lib", "point.RB"]⟩)] ["srv"]

/-- The tree of the text. -/
def shortParser : Parser := fun text =>
  ⟨sampleNode "program" none 0 text.utf8ByteSize
    [sampleNode "identifier" none 0 7 [],
      sampleNode "method" none 8 18 [sampleNode "identifier" (some "name") 12 13 []]], false⟩

/-- The definition in both files. -/
def shortRecord : MethodRecord :=
  ⟨"x", ⟨1, some 1, 8⟩, .priv, none, false⟩

/-- With one kind of line ends or the other, the file is resolved as the text. -/
theorem files_resolved_as_texts_shortFiles :
    Settings.standard.ReadsUtf8 ∧
      '\x00' ∉ (Path.ofText "/srv//new.rb").text.toList ∧
      (Path.ofText "/srv//new.rb").Supported ∧
      shortFiles.Holds (Path.ofText "/srv//new.rb")
        (Utf8.encode (LineEnd.returnAndFeed.written shortText)) ∧
      resolveFile .standard shortParser shortFiles (.ofText "/srv//new.rb") =
        .ok ⟨[shortRecord], [], some "/srv/new.rb"⟩ ∧
      resolveFile .standard shortParser shortFiles (.ofText "../srv/old.rb") =
        .ok ⟨[shortRecord], [], some "../srv/old.rb"⟩ := by
  have hutf8 : Settings.standard.ReadsUtf8 := Settings.readsUtf8_of_encoding rfl
  have hplain : '\x00' ∉ (Path.ofText "/srv//new.rb").text.toList := by decide +kernel
  have hsupported : (Path.ofText "/srv//new.rb").Supported :=
    ⟨"new", "rb", by decide, by decide, by decide, by decide +kernel, by decide +kernel⟩
  have hroot : shortFiles.inode? [] = some .directory := by decide
  have hsrv : shortFiles.inode? ["srv"] = some .directory := by decide
  have hlib : shortFiles.inode? ["srv", "lib"] = some .directory := by decide
  -- from the root to the link, and from beside the link to the file
  have hheld : shortFiles.Holds (.ofText "/srv//new.rb")
      (Utf8.encode (LineEnd.returnAndFeed.written shortText)) := by
    have hpath : Path.ofText "/srv//new.rb" = ⟨"/", ["srv", "new.rb"]⟩ := by decide +kernel
    have hlink : shortFiles.inode? ["srv", "new.rb"] = some (.link ⟨"", ["lib", "point.RB"]⟩) := rfl
    rw [hpath]
    refine ⟨by decide +kernel, ?_⟩
    refine .down hroot (by decide) (by decide) ?_
    refine .down hsrv (by decide) (by decide) ?_
    refine .through hlink ?_
    refine .down hsrv (by decide) (by decide) ?_
    refine .down hlib (by decide) (by decide) ?_
    exact .here rfl
  have hreturn : '\r' ∉ shortText.toList := by decide
  obtain ⟨hfiles, hwritten⟩ := files_resolved_as_texts .standard hutf8 shortParser
  refine ⟨hutf8, hplain, hsupported, hheld, ?_, ?_⟩
  · obtain ⟨unified, resolution, hunified, hresolution, hfile⟩ :=
      (((hfiles shortFiles _ hplain).2 hsupported).2 _ hheld).2 (by decide +kernel) _ rfl
    obtain rfl : shortText = unified := by
      rw [← LineEnd.unifyLineEnds_written .returnAndFeed hreturn]
      exact Text.unifyLineEnds_eq_iff.mpr hunified
    rw [hfile, ← hresolution]
    decide +kernel
  · obtain ⟨records, diagnostics, hlabels, hends⟩ := hwritten shortText hreturn
    have hold : shortFiles.Holds (.ofText "../srv/old.rb")
        (Utf8.encode (LineEnd.carriageReturn.written shortText)) := by
      have hpath : Path.ofText "../srv/old.rb" = ⟨"", ["..", "srv", "old.rb"]⟩ := by
        decide +kernel
      rw [hpath]
      refine ⟨by decide +kernel, ?_⟩
      refine .up hsrv ?_
      refine .down hroot (by decide) (by decide) ?_
      refine .down hsrv (by decide) (by decide) ?_
      exact .here rfl
    have hfile := hends .carriageReturn shortFiles (.ofText "../srv/old.rb") (by decide +kernel)
      ⟨"old", "rb", by decide, by decide, by decide, by decide +kernel, by decide +kernel⟩
      hold (by decide +kernel)
    rw [hfile, ← hlabels]
    decide +kernel

end MethodVisibility
