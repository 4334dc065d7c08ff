import Mathlib.Data.List.Infix
import Mathlib.Data.List.Lex
import Runnerd.TerminalHub

/-!
`formatGitHubActionsLog` of `internal/server/server_terminal.go`. What `archive/zip` finds
in the data is an input: the entries with what reading each of them gives, or that the data
is no archive. `sort.Slice` may order entries of one name in any way.
-/

namespace Runnerd

def maxGitHubLogFileBytes : Nat := 8 * 2 ^ 20
def maxGitHubLogOutputBytes : Nat := 16 * 2 ^ 20

def newline : UInt8 := 10

/-- The bytes of a Go string. -/
def textBytes (text : String) : Bytes := text.toList.flatMap String.utf8EncodeChar

structure ZipFile where
  name : Bytes
  isDir : Bool := false
  content : Bytes
  openErr : Option String := none
  /-- What `io.ReadAll` runs into when it reads up to a limit. -/
  readErr : Nat → Option String := fun _ => none
  closeErr : Option String := none

inductive GitHubLog where
  | archive (files : List ZipFile)
  | plain (data : Bytes)

section Format

variable (fileLimit outputLimit : Nat)

def fileHeader (name : Bytes) : Bytes := textBytes "===== " ++ name ++ textBytes " =====\n"

def fileNotice : Bytes :=
  textBytes ("[runnerd] GitHub log file truncated after " ++ toString fileLimit ++ " bytes.\n")

def outputNotice : Bytes :=
  textBytes ("[runnerd] GitHub log output truncated after " ++ toString outputLimit ++ " bytes.\n")

/-- What the loop writes for a file that was opened, and whether it stops there. -/
def appendFile (out : Bytes) (name chunk : Bytes) : Bytes × Bool :=
  let out := if out.length > 0 then out ++ [newline] else out
  let out := out ++ fileHeader name
  let fileTruncated : Bool := chunk.length > fileLimit
  let chunk := if fileTruncated then chunk.take fileLimit else chunk
  if out.length ≥ outputLimit then (out ++ outputNotice outputLimit, true)
  else
    let remaining := outputLimit - out.length
    let outputTruncated : Bool := chunk.length > remaining
    let chunk := if outputTruncated then chunk.take remaining else chunk
    let out := out ++ chunk
    let out := if chunk.getLast? = some newline then out else out ++ [newline]
    let out := if fileTruncated then out ++ fileNotice fileLimit else out
    if outputTruncated || out.length ≥ outputLimit then (out ++ outputNotice outputLimit, true)
    else (out, false)

def formatFiles : List ZipFile → Bytes → Except Bytes Bytes
  | [], out => .ok out
  | file :: rest, out =>
      if out.length ≥ outputLimit then .ok out
      else if file.isDir then formatFiles rest out
      else
        match file.openErr with
        | some err =>
            .error (textBytes "open github log " ++ file.name ++ textBytes (": " ++ err))
        | none =>
            let remainingLimit := outputLimit - out.length + 1
            let readLimit := if remainingLimit < fileLimit + 1 then remainingLimit else fileLimit + 1
            match file.readErr readLimit, file.closeErr with
            | some err, _ =>
                .error (textBytes "read github log " ++ file.name ++ textBytes (": " ++ err))
            | none, some err =>
                .error (textBytes "close github log " ++ file.name ++ textBytes (": " ++ err))
            | none, none =>
                let (out, stop) :=
                  appendFile fileLimit outputLimit out file.name (file.content.take readLimit)
                if stop then .ok out else formatFiles rest out

def formatLog (sortSlice : List ZipFile → List ZipFile) : GitHubLog → Except Bytes Bytes
  | .plain data =>
      if data.length > outputLimit then
        .ok (data.take outputLimit ++ newline :: outputNotice outputLimit)
      else .ok data
  | .archive files => formatFiles fileLimit outputLimit (sortSlice files) []

end Format

def formatGitHubActionsLog (sortSlice : List ZipFile → List ZipFile) :
    GitHubLog → Except Bytes Bytes :=
  formatLog maxGitHubLogFileBytes maxGitHubLogOutputBytes sortSlice

section Shown

variable {fileLimit outputLimit : Nat}

/-- What the output shows of a file: its header, the first bytes of its content, a line
break behind them or none, and the notices. -/
structure ShownFile where
  file : ZipFile
  taken : Bytes
  closed : Bool
  fileCut : Bool
  outputCut : Bool

def ShownFile.bytes (fileLimit outputLimit : Nat) (shown : ShownFile) : Bytes :=
  fileHeader shown.file.name ++ shown.taken ++ (if shown.closed then [newline] else []) ++
    (if shown.fileCut then fileNotice fileLimit else []) ++
    if shown.outputCut then outputNotice outputLimit else []

def ShownFile.noticed (shown : ShownFile) : Prop :=
  shown.fileCut = true ∨ shown.outputCut = true

/-- The first bytes of a file, and a line break unless they end with one. -/
def firstBytes (file : ZipFile) (taken : Bytes) (fileCut : Bool) : ShownFile where
  file := file
  taken := taken
  closed := !decide (taken.getLast? = some newline)
  fileCut := fileCut
  outputCut := false

def ShownFile.ended (shown : ShownFile) (outputCut : Bool) : ShownFile :=
  { shown with outputCut := outputCut }

@[simp] theorem ended_outputCut (shown : ShownFile) (outputCut : Bool) :
    (shown.ended outputCut).outputCut = outputCut := rfl

/-- A file that is shown as it is. -/
def wholeFile (file : ZipFile) : ShownFile := firstBytes file file.content false

/-- The files one behind the other, with a line break between two. -/
def shownLog (fileLimit outputLimit : Nat) : Bool → List ShownFile → Bytes
  | _, [] => []
  | first, shown :: rest =>
      (if first then [] else [newline]) ++ shown.bytes fileLimit outputLimit ++
        shownLog fileLimit outputLimit false rest

/-- What one turn of the loop shows of a file behind as many bytes. -/
structure ShownFile.Fits (fileLimit outputLimit before : Nat) (shown : ShownFile) : Prop where
  part : shown.taken <+: shown.file.content
  told : shown.taken = shown.file.content ∨ shown.noticed
  whole : shown.file.content.length ≤ fileLimit →
    before + ((wholeFile shown.file).bytes fileLimit outputLimit).length < outputLimit →
      shown = wholeFile shown.file
  goesOn : shown.outputCut = false →
    before + (shown.bytes fileLimit outputLimit).length < outputLimit
  most : before + (shown.bytes fileLimit outputLimit).length ≤
    outputLimit + (fileHeader shown.file.name).length + 1 +
      (fileNotice fileLimit).length + (outputNotice outputLimit).length

def separator (out : Bytes) : Bytes := if out.length > 0 then [newline] else []

theorem take_longer {chunk : Bytes} {limit : Nat} :
    (if chunk.length > limit then chunk.take limit else chunk) = chunk.take limit := by
  split
  · rfl
  · rw [List.take_of_length_le (by omega)]

/-- What was read is the whole content unless there is more than may be shown. -/
theorem read_whole {content : Bytes} {readLimit fileLimit room left : Nat}
    (read : readLimit = min (left + 1) (fileLimit + 1)) (less : room ≤ left)
    (short : ¬(content.take readLimit).length > fileLimit)
    (fits : ¬((content.take readLimit).take fileLimit).length > room) :
    ((content.take readLimit).take fileLimit).take room = content := by
  simp only [List.length_take] at short fits
  rw [List.take_take, List.take_take]
  apply List.take_of_length_le
  omega

/-- The line break and the notice about the file are written behind its content. -/
theorem tail_written (outputLimit : Nat) (start taken : Bytes) (file : ZipFile) (fileCut : Prop)
    [Decidable fileCut] :
    (if fileCut then
        (if taken.getLast? = some newline then start ++ fileHeader file.name ++ taken
          else start ++ fileHeader file.name ++ taken ++ [newline]) ++ fileNotice fileLimit
      else if taken.getLast? = some newline then start ++ fileHeader file.name ++ taken
      else start ++ fileHeader file.name ++ taken ++ [newline]) =
    start ++ (firstBytes file taken (decide fileCut)).bytes fileLimit outputLimit := by
  by_cases cut : fileCut
  · by_cases ended : taken.getLast? = some newline
    · simp [ShownFile.bytes, firstBytes, cut, ended]
    · simp [ShownFile.bytes, firstBytes, cut, ended]
  · by_cases ended : taken.getLast? = some newline
    · simp [ShownFile.bytes, firstBytes, cut, ended]
    · simp [ShownFile.bytes, firstBytes, cut, ended]

theorem bytes_ended (file : ZipFile) (taken : Bytes) (fileCut stop : Bool) :
    ((firstBytes file taken fileCut).ended stop).bytes fileLimit outputLimit =
      (firstBytes file taken fileCut).bytes fileLimit outputLimit ++
        if stop then outputNotice outputLimit else [] := by
  cases fileCut <;> cases stop <;> simp [ShownFile.bytes, ShownFile.ended, firstBytes]

/-- How long a file is as it is shown. -/
theorem length_firstBytes (fileLimit outputLimit : Nat) (file : ZipFile) (taken : Bytes)
    (fileCut : Bool) :
    (fileHeader file.name).length + taken.length ≤
        ((firstBytes file taken fileCut).bytes fileLimit outputLimit).length ∧
      ((firstBytes file taken fileCut).bytes fileLimit outputLimit).length ≤
        (fileHeader file.name).length + taken.length + 1 + (fileNotice fileLimit).length := by
  cases fileCut with
  | true =>
      by_cases ended : taken.getLast? = some newline
      · simp [ShownFile.bytes, firstBytes, ended]
        omega
      · simp [ShownFile.bytes, firstBytes, ended]
        omega
  | false =>
      by_cases ended : taken.getLast? = some newline
      · simp [ShownFile.bytes, firstBytes, ended]
        omega
      · simp [ShownFile.bytes, firstBytes, ended]
        omega

theorem firstBytes_fits {before : Nat} {file : ZipFile} {taken : Bytes}
    {fileCut outputCut stop : Bool} (part : taken <+: file.content)
    (told : taken = file.content ∨ fileCut = true ∨ outputCut = true)
    (size : before + (fileHeader file.name).length + taken.length ≤ outputLimit)
    (fewer : file.content.length ≤ fileLimit →
      before + (fileHeader file.name).length + file.content.length ≤ outputLimit →
        fileCut = false ∧ outputCut = false)
    (stop_ : (outputCut || decide (before + ((firstBytes file taken fileCut).bytes fileLimit
      outputLimit).length ≥ outputLimit)) = stop) :
    ((firstBytes file taken fileCut).ended stop).Fits fileLimit outputLimit before := by
  constructor
  · exact part
  · rcases told with whole | cut | cut
    · exact .inl whole
    · exact .inr (.inl cut)
    · exact .inr (.inr (by simp [← stop_, cut]))
  · intro short fits
    change before + ((firstBytes file file.content false).bytes fileLimit outputLimit).length <
      outputLimit at fits
    have least := (length_firstBytes fileLimit outputLimit file file.content false).1
    obtain ⟨rfl, rfl⟩ := fewer short (by omega)
    obtain rfl : taken = file.content := by simpa using told
    have open_ : stop = false := by
      rw [← stop_]
      simp only [Bool.false_or, decide_eq_false_iff_not, not_le]
      exact fits
    rw [open_]
    rfl
  · intro open_
    obtain rfl : stop = false := open_
    rw [bytes_ended]
    simp at stop_
    simp
    omega
  · have most := (length_firstBytes fileLimit outputLimit file taken fileCut).2
    have notice : (if stop then outputNotice outputLimit else []).length ≤
        (outputNotice outputLimit).length := by
      split
      · exact le_refl _
      · exact Nat.zero_le _
    rw [bytes_ended, List.length_append]
    show before + (_ + _) ≤ outputLimit + (fileHeader file.name).length + 1 + _ + _
    omega

/-- The header alone reaches the limit. -/
theorem header_fits {file : ZipFile} {before : Nat} (started : before ≤ outputLimit)
    (full : outputLimit ≤ before + (fileHeader file.name).length) :
    ShownFile.Fits fileLimit outputLimit before ⟨file, [], false, false, true⟩ := by
  constructor
  · exact List.nil_prefix
  · exact .inr (.inr rfl)
  · intro _ fits
    simp only [ShownFile.bytes, wholeFile, firstBytes, List.length_append] at fits
    omega
  · simp
  · simp only [ShownFile.bytes, List.length_append]
    simp
    omega

theorem append_separator (out : Bytes) :
    (if out.length > 0 then out ++ [newline] else out) = out ++ separator out := by
  unfold separator
  split
  · rfl
  · simp

theorem length_separator {out : Bytes} (room : out.length < outputLimit) :
    (out ++ separator out).length ≤ outputLimit := by
  unfold separator
  split
  · simp only [List.length_append, List.length_singleton]
    omega
  · simp only [List.length_append, List.length_nil]
    omega

/-- One turn of the loop, as the code writes it and as it shows the file. -/
theorem appendFile_shown {out : Bytes} (file : ZipFile) (room : out.length < outputLimit)
    {readLimit : Nat} (read : readLimit = min (outputLimit - out.length + 1) (fileLimit + 1)) :
    ∃ shown : ShownFile, shown.file = file ∧
      shown.Fits fileLimit outputLimit (out ++ separator out).length ∧
      appendFile fileLimit outputLimit out file.name (file.content.take readLimit) =
        (out ++ separator out ++ shown.bytes fileLimit outputLimit, shown.outputCut) := by
  have before := length_separator room
  have behind : out.length ≤ (out ++ separator out).length := by simp
  unfold appendFile
  rw [append_separator]
  generalize out ++ separator out = start at before behind ⊢
  by_cases full : (start ++ fileHeader file.name).length ≥ outputLimit
  · refine ⟨⟨file, [], false, false, true⟩, rfl, ?_, ?_⟩
    · rw [List.length_append] at full
      exact header_fits before full
    · simp only [if_pos full, ShownFile.bytes]
      simp
  · have room_ : (start ++ fileHeader file.name).length < outputLimit := not_le.mp full
    simp only [if_neg full, decide_eq_true_eq, take_longer]
    rw [tail_written outputLimit]
    -- what is taken and the two cuts are named; below only what holds of them is used
    generalize taken_ : ((file.content.take readLimit).take fileLimit).take
      (outputLimit - (start ++ fileHeader file.name).length) = taken
    generalize cut_ : decide ((file.content.take readLimit).length > fileLimit) = fileCut
    generalize over_ : decide (((file.content.take readLimit).take fileLimit).length >
      outputLimit - (start ++ fileHeader file.name).length) = outputCut
    have part : taken <+: file.content := by
      rw [← taken_, List.take_take, List.take_take]
      exact List.take_prefix _ _
    have size : taken.length ≤ outputLimit - (start ++ fileHeader file.name).length := by
      rw [← taken_]
      exact List.length_take_le _ _
    have told : taken = file.content ∨ fileCut = true ∨ outputCut = true := by
      by_cases short : (file.content.take readLimit).length > fileLimit
      · exact .inr (.inl (cut_.symm.trans (decide_eq_true short)))
      by_cases fits : ((file.content.take readLimit).take fileLimit).length >
          outputLimit - (start ++ fileHeader file.name).length
      · exact .inr (.inr (over_.symm.trans (decide_eq_true fits)))
      · refine .inl (taken_.symm.trans (read_whole read ?_ short fits))
        simp only [List.length_append]
        omega
    have fewer (short : file.content.length ≤ fileLimit) (fits : file.content.length ≤
        outputLimit - (start ++ fileHeader file.name).length) :
        fileCut = false ∧ outputCut = false := by
      rw [← cut_, ← over_]
      simp only [decide_eq_false_iff_not, List.length_take]
      omega
    generalize stop_ : (outputCut || decide ((start ++
      (firstBytes file taken fileCut).bytes fileLimit outputLimit).length ≥ outputLimit)) = stop
    refine ⟨(firstBytes file taken fileCut).ended stop, rfl, ?_, ?_⟩
    · apply firstBytes_fits part told
      · simp only [List.length_append] at size room_
        omega
      · intro short fits
        apply fewer short
        simp only [List.length_append]
        omega
      · rw [← List.length_append]
        exact stop_
    · rw [bytes_ended]
      cases stop with
      | true => simp
      | false => simp

/-- Opening, reading and closing the entry give no error. -/
def ZipFile.Readable (file : ZipFile) : Prop :=
  file.openErr = none ∧ (∀ limit, file.readErr limit = none) ∧ file.closeErr = none

def plainFiles (files : List ZipFile) : List ZipFile := files.filter fun file => !file.isDir

/-- What a run of the loop over the files shows behind as many bytes. -/
structure LogShows (fileLimit outputLimit before : Nat) (first : Bool) (files : List ZipFile)
    (shown : List ShownFile) : Prop where
  inOrder : shown.map ShownFile.file <+: plainFiles files
  part : ∀ one ∈ shown, one.taken <+: one.file.content
  told : (shown.map ShownFile.file = plainFiles files ∧ ∀ one ∈ shown, one.taken = one.file.content) ∨
    ∃ one ∈ shown, one.noticed
  whole : (∀ file ∈ plainFiles files, file.content.length ≤ fileLimit) →
    before + (shownLog fileLimit outputLimit first ((plainFiles files).map wholeFile)).length <
      outputLimit → shown = (plainFiles files).map wholeFile
  most : before + (shownLog fileLimit outputLimit first shown).length < outputLimit ∨
    ∃ one ∈ shown, before + (shownLog fileLimit outputLimit first shown).length ≤
      outputLimit + (fileHeader one.file.name).length + 1 + (fileNotice fileLimit).length +
        (outputNotice outputLimit).length

variable {before : Nat} {first : Bool} {files : List ZipFile} {file : ZipFile} {one : ShownFile}

theorem shows_none (room : before < outputLimit) (none_ : plainFiles files = []) :
    LogShows fileLimit outputLimit before first files [] := by
  constructor
  · exact List.nil_prefix
  · simp
  · exact .inl (by simp [none_])
  · simp [none_]
  · exact .inl (by simpa [shownLog] using room)

theorem fileHeader_pos (name : Bytes) : 0 < (fileHeader name).length := by
  have first : 0 < (textBytes "===== ").length := by decide
  simp only [fileHeader, List.length_append]
  omega

/-- The loop stops behind the file. -/
theorem shows_stop (plain : file.isDir = false) (same : one.file = file)
    (fits : one.Fits fileLimit outputLimit (before + (if first then [] else [newline]).length))
    (stop : one.outputCut = true) :
    LogShows fileLimit outputLimit before first (file :: files) [one] := by
  have head : plainFiles (file :: files) = file :: plainFiles files := by simp [plainFiles, plain]
  constructor
  · rw [head, List.map_singleton, same]
    simp
  · simpa using fits.part
  · exact .inr ⟨one, by simp, .inr stop⟩
  · intro short room
    have open_ := fits.whole
    rw [same] at open_
    rw [head] at short room
    simp only [List.map_cons, shownLog, List.length_append] at room
    have whole := open_ (short file (by simp)) (by omega)
    rw [whole] at stop
    exact absurd stop (by simp [wholeFile, firstBytes])
  · refine .inr ⟨one, by simp, ?_⟩
    have most := fits.most
    simp only [shownLog, List.append_nil, List.length_append]
    omega

/-- The loop goes on with the next file. -/
theorem shows_next {rest : List ShownFile} (plain : file.isDir = false) (same : one.file = file)
    (fits : one.Fits fileLimit outputLimit (before + (if first then [] else [newline]).length))
    (shows_ : LogShows fileLimit outputLimit (before + (if first then [] else [newline]).length +
      (one.bytes fileLimit outputLimit).length) false files rest) :
    LogShows fileLimit outputLimit before first (file :: files) (one :: rest) := by
  have head : plainFiles (file :: files) = file :: plainFiles files := by simp [plainFiles, plain]
  constructor
  · rw [head, List.map_cons, same]
    simpa using shows_.inOrder
  · simp only [List.mem_cons, forall_eq_or_imp]
    exact ⟨fits.part, shows_.part⟩
  · rcases shows_.told with ⟨all, full⟩ | ⟨other, member, noticed⟩
    · rcases fits.told with whole | noticed
      · refine .inl ⟨by rw [head, List.map_cons, same, all], ?_⟩
        simp only [List.mem_cons, forall_eq_or_imp]
        exact ⟨whole, full⟩
      · exact .inr ⟨one, by simp, noticed⟩
    · exact .inr ⟨other, by simp [member], noticed⟩
  · intro short room
    have open_ := fits.whole
    rw [same] at open_
    rw [head] at short room ⊢
    simp only [List.map_cons, shownLog, List.length_append] at room ⊢
    have whole := open_ (short file (by simp)) (by omega)
    have others := shows_.whole (fun other member => short other (by simp [member]))
      (by rw [whole]; omega)
    rw [whole, others]
  · rcases shows_.most with room | ⟨other, member, most⟩
    · refine .inl ?_
      simp only [shownLog, List.length_append]
      omega
    · refine .inr ⟨other, by simp [member], ?_⟩
      simp only [shownLog, List.length_append]
      omega

theorem formatFiles_shows (files : List ZipFile) (readable : ∀ file ∈ files, file.Readable)
    (out : Bytes) (room : out.length < outputLimit) :
    ∃ shown, formatFiles fileLimit outputLimit files out =
        .ok (out ++ shownLog fileLimit outputLimit out.isEmpty shown) ∧
      LogShows fileLimit outputLimit out.length out.isEmpty files shown := by
  induction files generalizing out with
  | nil => exact ⟨[], by simp [formatFiles, shownLog], shows_none room rfl⟩
  | cons file rest ih =>
      have others : ∀ file ∈ rest, file.Readable := fun file member =>
        readable file (List.mem_cons_of_mem _ member)
      simp only [formatFiles]
      rw [if_neg (not_le.mpr room)]
      by_cases dir : file.isDir = true
      · -- a directory is skipped, and the output stays
        obtain ⟨shown, same, shows_⟩ := ih others out room
        have plain_ : plainFiles (file :: rest) = plainFiles rest := by simp [plainFiles, dir]
        rw [if_pos dir]
        refine ⟨shown, same, ?_⟩
        obtain ⟨inOrder, part, told, whole, most⟩ := shows_
        exact ⟨plain_ ▸ inOrder, part, plain_ ▸ told, plain_ ▸ whole, most⟩
      · obtain ⟨opened, read, closed⟩ := readable file (by simp)
        have plain : file.isDir = false := by simpa using dir
        have lead : separator out = if out.isEmpty then [] else [newline] := by
          cases out with
          | nil => rfl
          | cons => simp [separator]
        rw [if_neg dir, opened, read, closed]
        dsimp only
        have limit : (if outputLimit - out.length + 1 < fileLimit + 1 then
            outputLimit - out.length + 1 else fileLimit + 1) =
              min (outputLimit - out.length + 1) (fileLimit + 1) := by
          split
          · omega
          · omega
        obtain ⟨one, same, fits, written⟩ := appendFile_shown file room limit
        rw [written]
        have size : (out ++ separator out).length =
            out.length + (if out.isEmpty then [] else [newline]).length := by
          rw [← lead, List.length_append]
        rw [size] at fits
        cases stop : one.outputCut with
        | true =>
            refine ⟨[one], ?_, shows_stop plain same fits stop⟩
            simp [shownLog, lead]
        | false =>
            -- the rest of the files is written behind this one, with a separator in front
            have goesOn := fits.goesOn stop
            have next : (out ++ separator out ++ one.bytes fileLimit outputLimit).length =
                out.length + (if out.isEmpty then [] else [newline]).length +
                  (one.bytes fileLimit outputLimit).length := by
              rw [List.length_append, size]
            have some_ : (out ++ separator out ++ one.bytes fileLimit outputLimit).isEmpty = false := by
              have long := fileHeader_pos one.file.name
              simp [ShownFile.bytes, List.length_pos_iff.mp long]
            obtain ⟨shown, more, shows_⟩ := ih others _ (next ▸ goesOn)
            rw [next, some_] at shows_
            refine ⟨one :: shown, ?_, shows_next plain same fits shows_⟩
            simp only [Bool.false_eq_true, if_false]
            rw [more, some_]
            simp [shownLog, lead]

end Shown

section Report

/-- Go compares strings byte by byte. -/
def nameCodes (file : ZipFile) : List Nat := file.name.map UInt8.toNat

/-- What `sort.Slice` leaves when it sorts by name. -/
structure SortsByName (sortSlice : List ZipFile → List ZipFile) : Prop where
  perm : ∀ files, (sortSlice files).Perm files
  sorted : ∀ files, (sortSlice files).Pairwise fun one two => nameCodes one ≤ nameCodes two

/-- The text of an archive: some files in the order of their names from the first on, each
with a part of its content. -/
structure ArchiveReport (fileLimit outputLimit : Nat) (files order : List ZipFile)
    (shown : List ShownFile) (out : Bytes) : Prop where
  perm : order.Perm (plainFiles files)
  sorted : order.Pairwise fun one two => nameCodes one ≤ nameCodes two
  text : out = shownLog fileLimit outputLimit true shown
  inOrder : shown.map ShownFile.file <+: order
  part : ∀ one ∈ shown, one.taken <+: one.file.content
  told : (shown.map ShownFile.file = order ∧ ∀ one ∈ shown, one.taken = one.file.content) ∨
    ∃ one ∈ shown, one.noticed
  whole : (∀ file ∈ order, file.content.length ≤ fileLimit) →
    (shownLog fileLimit outputLimit true (order.map wholeFile)).length < outputLimit →
      shown = order.map wholeFile
  most : ∃ header, (header = [] ∨ ∃ one ∈ shown, header = fileHeader one.file.name) ∧
    out.length ≤ outputLimit + header.length + 2 + (fileNotice fileLimit).length +
      (outputNotice outputLimit).length

structure PlainReport (outputLimit : Nat) (data taken : Bytes) (cut : Bool) (out : Bytes) :
    Prop where
  text : out = taken ++ if cut then newline :: outputNotice outputLimit else []
  part : taken <+: data
  told : taken = data ∨ cut = true
  whole : data.length ≤ outputLimit → taken = data ∧ cut = false
  most : out.length ≤ outputLimit + 1 + (outputNotice outputLimit).length

theorem archive_report {sortSlice : List ZipFile → List ZipFile} (sorts : SortsByName sortSlice)
    {fileLimit outputLimit : Nat} (room : 0 < outputLimit) (files : List ZipFile)
    (readable : ∀ file ∈ files, file.Readable) :
    ∃ order shown out, formatLog fileLimit outputLimit sortSlice (.archive files) = .ok out ∧
      ArchiveReport fileLimit outputLimit files order shown out := by
  have readable' : ∀ file ∈ sortSlice files, file.Readable := fun file member =>
    readable file ((sorts.perm files).mem_iff.mp member)
  obtain ⟨shown, same, shows_⟩ : ∃ shown, formatFiles fileLimit outputLimit (sortSlice files) [] =
      .ok (shownLog fileLimit outputLimit true shown) ∧
        LogShows fileLimit outputLimit 0 true (sortSlice files) shown :=
    formatFiles_shows (sortSlice files) readable' [] room
  refine ⟨plainFiles (sortSlice files), shown, _, same, ?_⟩
  constructor
  · exact (sorts.perm files).filter _
  · exact (sorts.sorted files).filter _
  · rfl
  · exact shows_.inOrder
  · exact shows_.part
  · exact shows_.told
  · intro short fits
    exact shows_.whole short (by simpa using fits)
  · rcases shows_.most with fits | ⟨one, member, most⟩
    · refine ⟨[], .inl rfl, ?_⟩
      simp at fits ⊢
      omega
    · refine ⟨_, .inr ⟨one, member, rfl⟩, ?_⟩
      simp at most ⊢
      omega

theorem plain_report (sortSlice : List ZipFile → List ZipFile) (fileLimit outputLimit : Nat)
    (data : Bytes) :
    ∃ taken cut out, formatLog fileLimit outputLimit sortSlice (.plain data) = .ok out ∧
      PlainReport outputLimit data taken cut out := by
  simp only [formatLog]
  by_cases long : data.length > outputLimit
  · rw [if_pos long]
    refine ⟨data.take outputLimit, true, _, rfl, rfl, List.take_prefix _ _, .inr rfl, ?_, ?_⟩
    · omega
    · simp only [List.length_append, List.length_take, List.length_cons]
      omega
  · rw [if_neg long]
    refine ⟨data, false, _, rfl, by simp, List.prefix_refl _, .inl rfl, fun _ => ⟨rfl, rfl⟩, ?_⟩
    omega

end Report

theorem github_log_truncation_told (sortSlice : List ZipFile → List ZipFile)
    (sorts : SortsByName sortSlice) :
    (∀ files : List ZipFile, (∀ file ∈ files, file.Readable) →
      ∃ order shown out, formatGitHubActionsLog sortSlice (.archive files) = .ok out ∧
        ArchiveReport maxGitHubLogFileBytes maxGitHubLogOutputBytes files order shown out) ∧
    ∀ data : Bytes, ∃ taken cut out, formatGitHubActionsLog sortSlice (.plain data) = .ok out ∧
      PlainReport maxGitHubLogOutputBytes data taken cut out := by
  constructor
  · intro files readable
    exact archive_report sorts (by decide) files readable
  · intro data
    exact plain_report sortSlice _ _ data

def nameBefore (one two : ZipFile) : Bool := decide (nameCodes one ≤ nameCodes two)

theorem mergeSort_sorts : SortsByName fun files => files.mergeSort nameBefore where
  perm := fun files => List.mergeSort_perm files _
  sorted := fun files => by
    have trans (one two three : ZipFile) (first : nameBefore one two = true)
        (second : nameBefore two three = true) : nameBefore one three = true := by
      simp only [nameBefore, decide_eq_true_eq] at first second ⊢
      exact le_trans first second
    have total (one two : ZipFile) : (nameBefore one two || nameBefore two one) = true := by
      simp only [nameBefore, Bool.or_eq_true, decide_eq_true_eq]
      exact le_total _ _
    exact (List.pairwise_mergeSort trans total files).imp fun before => of_decide_eq_true before

theorem taken_within {fileLimit outputLimit : Nat} {shown : List ShownFile} {one : ShownFile}
    (member : one ∈ shown) (first : Bool) :
    one.taken.length ≤ (shownLog fileLimit outputLimit first shown).length := by
  induction shown generalizing first with
  | nil => cases member
  | cons head rest ih =>
      simp only [shownLog, List.length_append]
      rcases List.mem_cons.mp member with rfl | later
      · simp only [ShownFile.bytes, List.length_append]
        omega
      · have inside := ih later false
        omega

/-- A file longer than any output is not shown without a notice. -/
theorem archive_noticed {files order : List ZipFile} {shown : List ShownFile} {out : Bytes}
    {file : ZipFile} (report : ArchiveReport maxGitHubLogFileBytes maxGitHubLogOutputBytes files
      order shown out)
    (member : file ∈ plainFiles files) (named : ∀ file ∈ files, file.name.length ≤ 2 ^ 10)
    (long : 2 ^ 25 ≤ file.content.length) : ∃ one ∈ shown, one.noticed := by
  refine report.told.resolve_left ?_
  rintro ⟨all, whole⟩
  have listed : file ∈ shown.map ShownFile.file := by
    rw [all]
    exact report.perm.mem_iff.mpr member
  obtain ⟨one, present, rfl⟩ := List.mem_map.mp listed
  have inside : one.taken.length ≤ out.length := by
    rw [report.text]
    exact taken_within present true
  rw [whole one present] at inside
  obtain ⟨header, short, most⟩ := report.most
  have headed : header.length ≤ 2 ^ 11 := by
    rcases short with rfl | ⟨other, among, rfl⟩
    · decide
    · have source : other.file ∈ plainFiles files :=
        report.perm.mem_iff.mp (all ▸ List.mem_map_of_mem among)
      have name := named other.file (List.mem_of_mem_filter source)
      have front : (textBytes "===== ").length = 6 := by decide
      have back : (textBytes " =====\n").length = 7 := by decide
      simp only [fileHeader, List.length_append, front, back]
      omega
  have fileText : (fileNotice maxGitHubLogFileBytes).length ≤ 100 := by decide +kernel
  have outputText : (outputNotice maxGitHubLogOutputBytes).length ≤ 100 := by decide +kernel
  have limit : maxGitHubLogOutputBytes = 2 ^ 24 := by decide
  omega

def longContent : Bytes := List.replicate (2 ^ 25) newline

theorem longContent_length : longContent.length = 2 ^ 25 := List.length_replicate

def longFile : ZipFile := { name := textBytes "1_build.txt", content := longContent }
def shortFile : ZipFile := { name := textBytes "2_test.txt", content := textBytes "ok" }

/-- One file is over both limits, and the output says so; data without an archive likewise. -/
theorem github_log_truncation_told_entry :
    (∃ order shown out, formatGitHubActionsLog (fun files => files.mergeSort nameBefore)
        (.archive [shortFile, longFile]) = .ok out ∧
      ArchiveReport maxGitHubLogFileBytes maxGitHubLogOutputBytes [shortFile, longFile] order shown
        out ∧ ∃ one ∈ shown, one.noticed) ∧
    ∃ taken out, formatGitHubActionsLog (fun files => files.mergeSort nameBefore)
        (.plain longContent) = .ok out ∧
      PlainReport maxGitHubLogOutputBytes longContent taken true out := by
  have readable : ∀ file ∈ [shortFile, longFile], file.Readable := by
    simp [ZipFile.Readable, shortFile, longFile]
  constructor
  · obtain ⟨order, shown, out, same, report⟩ :=
      (github_log_truncation_told _ mergeSort_sorts).1 [shortFile, longFile] readable
    have member : longFile ∈ plainFiles [shortFile, longFile] := by
      simp [plainFiles, shortFile, longFile]
    have named : ∀ file ∈ [shortFile, longFile], file.name.length ≤ 2 ^ 10 := by
      intro file among
      simp only [List.mem_cons, List.not_mem_nil, or_false] at among
      rcases among with rfl | rfl <;> decide
    exact ⟨order, shown, out, same, report,
      archive_noticed report member named longContent_length.ge⟩
  · obtain ⟨taken, cut, out, same, report⟩ :=
      (github_log_truncation_told _ mergeSort_sorts).2 longContent
    cases cut with
    | true => exact ⟨taken, out, same, report⟩
    | false =>
        have whole : taken = longContent := report.told.resolve_right nofun
        have most := report.most
        rw [report.text, whole] at most
        have outputText : (outputNotice maxGitHubLogOutputBytes).length ≤ 100 := by decide +kernel
        have limit : maxGitHubLogOutputBytes = 2 ^ 24 := by decide
        simp only [Bool.false_eq_true, if_false, List.append_nil, longContent_length] at most
        omega

end Runnerd
