import BlockFlow.Command.Run
import BlockFlow.Proofs.Box.Outline
import BlockFlow.Proofs.Json.Places
import BlockFlow.Proofs.Styled.Loading
import BlockFlow.Proofs.Text.Decoding
import BlockFlow.Proofs.Text.Messages

/-! # Runs that fail

A command that is called as it should be fails for what its file holds, and for nothing else. Then
it prints nothing, and what it reports is its log records and one message. All that the message
quotes from the file is on one line; but unknown keys and the path are taken over as they are, and
where one of them has a line feed, the message has it too.
-/

namespace BlockFlow

open Text (Shown TakesOver)

/-! ## The messages -/

theorem Fault.shown_message (f : Fault) (allowed : Char → Prop) : Shown allowed f.message := by
  cases f with
  | strayInSelectors c =>
    exact ((Shown.of_all rfl).append (Text.shown_quote _)).append (Shown.of_all rfl)
  | missingColon name => exact (Shown.of_all rfl).append (Text.shown_quote name)
  | missingSemicolon name => exact (Shown.of_all rfl).append (Text.shown_quote name)
  | malformedNumber number => exact (Shown.of_all rfl).append (Text.shown_quote number)
  | unknownUnit unit => exact (Shown.of_all rfl).append (Text.shown_quote unit)
  | _ => exact Shown.of_all rfl

theorem SyntaxError.shown_message (e : SyntaxError) (allowed : Char → Prop) :
    Shown allowed e.message := by
  have hLine : Shown allowed (toString (e.place.line : Int)) := Text.shown_toString_int _
  have hColumn : Shown allowed (toString (e.place.column : Int)) := Text.shown_toString_int _
  have hWords := (((Shown.of_all (s := "line ") rfl).append hLine).append
    (Shown.of_all (s := ", column ") rfl)).append hColumn
  exact (((e.fault.shown_message allowed).append (Shown.of_all rfl)).append hWords).append
    (Shown.of_all rfl)

theorem Text.DecodeError.shown_message (e : Text.DecodeError) (allowed : Char → Prop) :
    Shown allowed e.message := by
  have hBytes : Shown allowed e.bytes := by
    unfold bytes
    split
    · have hHex : Shown allowed (String.ofList (Text.hex 2 e.first.toNat)) := fun c hc => by
        rw [String.toList_ofList] at hc
        exact .inl (Text.isPrintable_of_mem_hex hc)
      exact (((Shown.of_all rfl).append hHex).append (Shown.of_all rfl)).append
        (Text.shown_toString _)
    · exact (((Shown.of_all rfl).append (Text.shown_toString _)).append (Shown.of_all rfl)).append
        (Text.shown_toString _)
  have hFault : Shown allowed e.fault.message := by
    cases e.fault <;> exact Shown.of_all rfl
  exact (((Shown.of_all rfl).append hBytes).append (Shown.of_all rfl)).append hFault

theorem Json.TextError.shown_message (e : Json.TextError) (allowed : Char → Prop) :
    Shown allowed e.message := by
  have hWords : Shown allowed e.malformation.message := by
    cases e.malformation <;> exact Shown.of_all rfl
  have hPlace := (((hWords.append (Shown.of_all (s := ": line ") rfl)).append
    (Text.shown_toString e.place.line)).append (Shown.of_all (s := " column ") rfl)).append
    (Text.shown_toString e.place.column)
  exact ((hPlace.append (Shown.of_all rfl)).append (Text.shown_toString _)).append
    (Shown.of_all rfl)

theorem TreePath.shown_text (path : TreePath) (allowed : Char → Prop) :
    Shown allowed path.text := by
  refine Shown.join (List.forall_mem_cons.mpr ⟨Shown.of_all rfl, fun s hs => ?_⟩)
  obtain ⟨i, -, rfl⟩ := List.mem_map.mp hs
  exact ((Shown.of_all rfl).append (Text.shown_toString i)).append (Shown.of_all rfl)

theorem Json.shown_kind (value : Json) (allowed : Char → Prop) : Shown allowed value.kind := by
  unfold kind
  split <;> exact Shown.of_all rfl

/-- The keys that are found fault with. -/
def TreeError.keys : TreeError → List String
  | .node _ (.unknownKeys keys) => keys
  | _ => []

theorem NodeCheck.Reports.takesOver {value : Json} {path : TreePath} {check : NodeCheck}
    {error : TreeError} (h : check.Reports value path error) :
    TakesOver error.keys error.message := by
  have hPlace (allowed : Char → Prop) : Shown allowed (path.text ++ ": ") :=
    (path.shown_text allowed).append (Shown.of_all rfl)
  have hPlain {words : String} (hWords : ∀ allowed, Shown allowed words) :
      TakesOver [] (path.text ++ ": " ++ words) :=
    (TakesOver.of_shown hWords).behind hPlace
  cases h with
  | object => exact hPlain fun allowed => (Shown.of_all rfl).append (value.shown_kind allowed)
  | @keys unknown =>
    have hKeys : TakesOver unknown (", ".intercalate unknown) :=
      .intercalate (fun _ => Shown.of_all rfl) unknown
    exact (hKeys.behind fun _ => Shown.of_all rfl).behind hPlace
  | tag => exact hPlain fun _ => Shown.of_all rfl
  | style => exact hPlain fun _ => Shown.of_all rfl
  | children => exact hPlain fun _ => Shown.of_all rfl
  | declarations => exact TakesOver.of_shown (SyntaxError.shown_message _)

theorem TreeError.takesOver {value : Json} {error : TreeError}
    (h : Element.ofJson value = .error error) : TakesOver error.keys error.message := by
  obtain ⟨_, _, -, hFails, -⟩ := Element.fails_of_ofJsonAt h
  obtain ⟨_, -, -, -, hReports⟩ := hFails
  exact hReports.takesOver

namespace Command

/-! ## Results -/

/-- What a run gives that fails with a message, which takes over the given texts. -/
structure Result.FailsWith (r : Result) (time : String) (level : LogLevel) (message : String)
    (taken : List String) : Prop where
  exitCode : r.exitCode = 1
  output : r.output = ""
  errors : ∃ records, r.errors = LogRecord.lines time level records ++ printed message ++ "\n"
  shown : Shown (fun c => ∃ s ∈ taken, c ∈ s.toList) (printed message)
  newline_mem_iff : '\n' ∈ (printed message).toList ↔ ∃ s ∈ taken, '\n' ∈ s.toList

structure Result.Succeeds (r : Result) (time : String) (level : LogLevel) : Prop where
  exitCode : r.exitCode = 0
  errors : ∃ records, r.errors = LogRecord.lines time level records

/-- A run fails exactly for a reason; each reason comes with its message and the texts that the
message takes over. -/
structure Result.Answers (r : Result) (time : String) (level : LogLevel)
    (Reason : String → List String → Prop) : Prop where
  fails : ∀ message taken, Reason message taken → r.FailsWith time level message taken
  succeeds : (∀ message taken, ¬ Reason message taken) → r.Succeeds time level

theorem lines_eq_empty_or (time : String) (level : LogLevel) (records : List LogRecord) :
    LogRecord.lines time level records = "" ∨
      time.toList <+: (LogRecord.lines time level records).toList := by
  unfold LogRecord.lines
  cases records.filter fun r => level.rank ≤ r.level.rank with
  | nil => exact .inl rfl
  | cons r rest =>
    right
    rw [List.map_cons, String.join_cons, LogRecord.line, String.intercalate_cons_cons]
    simp only [String.toList_append, List.append_assoc]
    exact List.prefix_append _ _

theorem printed_line (message : String) : printed (message ++ "\n") = printed message ++ "\n" := by
  apply String.toList_injective
  rw [printed, printed, String.toList_append, String.toList_append, String.toList_ofList,
    String.toList_ofList, String.toList_ofList]
  exact Text.withoutStyles_newline message.toList

variable {time : String} {level : LogLevel}

theorem Result.failsWith_failed (records : List LogRecord) {message : String}
    {taken : List String} (h : TakesOver taken message) :
    (Result.failed (LogRecord.lines time level records) message).FailsWith time level message
      taken where
  exitCode := rfl
  output := rfl
  errors := ⟨records, by rw [failed, printed_line, String.append_assoc]⟩
  shown := fun c hc => by
    rw [printed, String.toList_ofList] at hc
    exact h.shown c (Text.withoutStyles_subset _ hc)
  newline_mem_iff := by
    rw [printed, String.toList_ofList, Text.newline_mem_withoutStyles]
    exact h.newline_mem_iff

theorem Result.succeeds_done (records : List LogRecord) (lines : List String) :
    (Result.done (LogRecord.lines time level records) lines).Succeeds time level :=
  ⟨rfl, records, rfl⟩

/-! ## Style sheets -/

/-- Why a style sheet file is refused, with the message that says so and the texts that the message
takes over. A file has bytes to blame exactly if it is not valid UTF-8 (`Text.exists_blames_iff`). -/
inductive SheetFails (mode : Mode) (path : String) (bytes : ByteArray) :
    (message : String) → (taken : List String) → Prop
  | encoding {error : Text.DecodeError} : error.Blames bytes.data.toList →
      SheetFails mode path bytes
        ("Read error: " ++ FilePath.fileName path ++ " is not valid UTF-8: " ++ error.message)
        [FilePath.fileName path]
  | fault {text error} : Text.decode bytes = .ok text →
      (Stylesheet.parse mode (String.ofList text)).result = .error error →
      SheetFails mode path bytes ("Parse error: " ++ error.message) []

theorem SheetFails.takesOver {mode : Mode} {path : String} {bytes : ByteArray} {message : String}
    {taken : List String} (h : SheetFails mode path bytes message taken) :
    TakesOver taken message := by
  cases h with
  | @encoding error =>
    exact (((TakesOver.self _).behind fun _ => Shown.of_all rfl).before fun _ =>
      Shown.of_all rfl).before error.shown_message
  | fault => exact (TakesOver.of_shown (SyntaxError.shown_message _)).behind fun _ => Shown.of_all rfl

theorem answers_readSheet (mode : Mode) (path : String) (bytes : ByteArray)
    (report : String → Stylesheet → List Diagnostic → List String) :
    (readSheet (LogRecord.lines time level) mode path bytes report).Answers time level
      (SheetFails mode path bytes) := by
  constructor
  · intro message taken h
    have hTaken := h.takesOver
    rcases h with hBlames | ⟨hText, hError⟩
    · rw [readSheet, Text.decode_of_blames hBlames]
      exact Result.failsWith_failed [] hTaken
    · rw [readSheet, hText]
      dsimp only
      rw [hError]
      exact Result.failsWith_failed _ hTaken
  · intro hNone
    unfold readSheet
    split
    · next hError => exact absurd (.encoding (Text.decode_eq_error_iff.mp hError)) (hNone _ _)
    · next text hText =>
      dsimp only
      split
      · exact Result.succeeds_done _ _
      · next hError => exact absurd (.fault hText hError) (hNone _ _)

/-! ## Trees -/

/-- Why a tree file is refused, with the message that says so and the texts that the message takes
over. -/
inductive TreeFails (path : String) (bytes : ByteArray) :
    (message : String) → (taken : List String) → Prop
  | encoding {error : Text.DecodeError} : error.Blames bytes.data.toList →
      TreeFails path bytes
        ("Layout error: " ++ (path ++ " is not valid UTF-8: " ++ error.message)) [path]
  | json {before rest malformation} : Text.decode bytes = .ok (before ++ rest) →
      Json.parse (before ++ rest) = .error (.malformed malformation rest) →
      TreeFails path bytes
        ("Layout error: " ++ ("Invalid JSON in " ++ path ++ ": " ++
          Json.TextError.message ⟨malformation, .after before, before.length⟩)) [path]
  | data {text value error} : Text.decode bytes = .ok text → Json.parse text = .ok value →
      Element.ofJson value = .error error →
      TreeFails path bytes ("Layout error: " ++ error.message) error.keys
  | hiddenRoot {text value root} : Text.decode bytes = .ok text → Json.parse text = .ok value →
      Element.ofJson value = .ok root → root.display = .hidden →
      TreeFails path bytes ("Layout error: " ++ BoxError.hiddenRoot.message) []

variable {path message : String} {bytes : ByteArray} {taken : List String}

theorem TreeFails.takesOver (h : TreeFails path bytes message taken) : TakesOver taken message := by
  have hWords (allowed : Char → Prop) : Shown allowed "Layout error: " := Shown.of_all rfl
  cases h with
  | @encoding error =>
    exact (((TakesOver.self path).before fun _ => Shown.of_all rfl).before
      error.shown_message).behind hWords
  | json =>
    exact ((((TakesOver.self path).behind fun _ => Shown.of_all rfl).before fun _ =>
      Shown.of_all rfl).before (Json.TextError.shown_message _)).behind hWords
  | data _ _ hError => exact (TreeError.takesOver hError).behind hWords
  | hiddenRoot => exact TakesOver.of_shown fun _ => Shown.of_all rfl

theorem ofFile_eq_ok {text : List Char} {value : Json} (hText : Text.decode bytes = .ok text)
    (hParse : Json.parse text = .ok value) : Json.ofFile path bytes = .ok value := by
  rw [Json.ofFile, hText]
  dsimp only
  rw [hParse]

theorem layoutFile_eq_error (width : Float) (h : TreeFails path bytes message taken) :
    ∃ records error, layoutFile width path bytes = (records, .error error) ∧
      (∀ limit, error ≠ .file (.beyond limit)) ∧ message = "Layout error: " ++ error.message := by
  unfold layoutFile
  rcases h with hBlames | ⟨hText, hParse⟩ | ⟨hText, hParse, hError⟩ |
    ⟨hText, hParse, hRoot, hHidden⟩
  · rw [Json.ofFile, Text.decode_of_blames hBlames]
    exact ⟨_, _, rfl, nofun, rfl⟩
  · rw [Json.ofFile, hText]
    dsimp only
    rw [hParse, ← Json.TextError.within_append]
    exact ⟨_, _, rfl, nofun, rfl⟩
  · rw [ofFile_eq_ok hText hParse]
    dsimp only
    rw [hError]
    exact ⟨_, _, rfl, nofun, rfl⟩
  · rw [ofFile_eq_ok hText hParse]
    dsimp only
    rw [hRoot]
    dsimp only
    rw [Element.layout, Element.rootBox_eq_error_iff.mpr hHidden]
    exact ⟨_, _, rfl, nofun, rfl⟩

theorem layoutFile_eq_ok (width : Float)
    (hLimits : ∀ text limit, Text.decode bytes = .ok text →
      Json.parse text ≠ .error (.beyond limit))
    (h : ∀ message taken, ¬ TreeFails path bytes message taken) :
    ∃ records box, layoutFile width path bytes = (records, .ok box) := by
  cases hText : Text.decode bytes with
  | error error => exact absurd (.encoding (Text.decode_eq_error_iff.mp hText)) (h _ _)
  | ok text =>
  cases hParse : Json.parse text with
  | error fault =>
    cases fault with
    | malformed m rest =>
      obtain ⟨before, rfl⟩ := Json.suffix_of_parse hParse
      exact absurd (.json hText hParse) (h _ _)
    | beyond limit => exact absurd hParse (hLimits text limit hText)
  | ok value =>
  cases hLoad : Element.ofJson value with
  | error error => exact absurd (.data hText hParse hLoad) (h _ _)
  | ok root =>
  have hVisible : root.display ≠ .hidden := fun hHidden =>
    h _ _ (.hiddenRoot hText hParse hLoad hHidden)
  obtain ⟨box, hBox⟩ := Element.exists_rootBox hVisible
  rw [layoutFile, ofFile_eq_ok hText hParse]
  dsimp only
  rw [hLoad]
  dsimp only
  rw [Element.layout, hBox]
  exact ⟨_, _, rfl⟩

section Layout

variable {ctx : Context} {settings : Settings} {log : List LogRecord → String}
  {rest : List String} {a : Arguments} {width : Float} {records : List LogRecord}

variable (hRead : Arguments.read layoutOptions true rest = .ok a) (hHelp : a.has "--help" = false)
  (hWidth : chosenWidth settings a = .ok width)
  (hFile : fileArgument ctx.entry "TREE" a = .ok (path, bytes))

include hRead hHelp hWidth hFile

theorem runLayout_of_error {error : LayoutError}
    (hLayout : layoutFile width path bytes = (records, .error error))
    (hLimits : ∀ limit, error ≠ .file (.beyond limit)) :
    runLayout ctx settings log rest =
      .ok (.failed (log records) ("Layout error: " ++ error.message)) := by
  unfold runLayout
  rw [hRead]
  simp only [Except.mapError, hHelp, hWidth, hFile, hLayout, bind, Except.bind, Bool.false_eq_true,
    if_false]
  rfl

theorem runLayout_of_ok {box : Box Float}
    (hLayout : layoutFile width path bytes = (records, .ok box)) :
    ∃ lines, runLayout ctx settings log rest = .ok (.done (log records) lines) := by
  unfold runLayout
  rw [hRead]
  simp only [Except.mapError, hHelp, hWidth, hFile, hLayout, bind, Except.bind, Bool.false_eq_true,
    if_false]
  exact ⟨_, rfl⟩

theorem answers_runLayout
    (hLimits : ∀ text limit, Text.decode bytes = .ok text →
      Json.parse text ≠ .error (.beyond limit)) :
    ∃ r, runLayout ctx settings (LogRecord.lines time level) rest = .ok r ∧
      r.Answers time level (TreeFails path bytes) := by
  by_cases hSome : ∃ message taken, TreeFails path bytes message taken
  · obtain ⟨message, taken, hFails⟩ := hSome
    obtain ⟨records, error, hLayout, hWithin, -⟩ := layoutFile_eq_error width hFails
    refine ⟨_, runLayout_of_error hRead hHelp hWidth hFile hLayout hWithin, ?_,
      fun hNone => absurd hFails (hNone _ _)⟩
    -- The file is laid out once, so whichever reason is given, the error is the same.
    intro message' taken' hFails'
    obtain ⟨records', error', hLayout', -, hMessage⟩ := layoutFile_eq_error width hFails'
    obtain ⟨rfl, hError⟩ := Prod.mk.inj (hLayout.symm.trans hLayout')
    rw [Except.error.inj hError, ← hMessage]
    exact Result.failsWith_failed _ hFails'.takesOver
  · have hNone : ∀ message taken, ¬ TreeFails path bytes message taken :=
      fun message taken h => hSome ⟨message, taken, h⟩
    obtain ⟨records, box, hLayout⟩ := layoutFile_eq_ok width hLimits hNone
    obtain ⟨lines, hRun⟩ := runLayout_of_ok hRead hHelp hWidth hFile hLayout
    exact ⟨_, hRun, fun message taken h => absurd h (hNone message taken),
      fun _ => Result.succeeds_done records _⟩

end Layout

/-! ## Commands -/

def Name.options : Name → List OptionSpec
  | parse => [helpOption]
  | validate => validateOptions
  | layout => layoutOptions

/-- A command that is called as it should be, with settings that can be read and on one file. -/
structure Invocation (ctx : Context) (arguments : List String) where
  chosen : Option LogLevel
  name : Name
  rest : List String
  settings : Settings
  level : LogLevel
  own : Arguments
  path : String
  bytes : ByteArray
  request : Request.read arguments = .ok (.command chosen name rest)
  configured : Settings.ofEnvironment? ctx.environment = .ok settings
  leveled : logLevel settings chosen = .ok level
  read_own : Arguments.read name.options true rest = .ok own
  no_help : own.has "--help" = false
  width : name = .layout → ∃ width, chosenWidth settings own = .ok width
  one_path : own.positional = [path]
  no_null : '\x00' ∉ path.toList
  file : ctx.entry path = .file bytes

namespace Invocation

variable {arguments : List String}

/-- The reasons for which the file is refused, each with its message and the texts that the message
takes over. -/
def Refused (i : Invocation ctx arguments) : (message : String) → (taken : List String) → Prop :=
  match i.name with
  | .parse => SheetFails .strict i.path i.bytes
  | .validate => SheetFails (chosenMode i.settings i.own) i.path i.bytes
  | .layout => TreeFails i.path i.bytes

/-- A file that is read as JSON has no whole number with too many digits and no lone surrogate. -/
def WithinLimits (i : Invocation ctx arguments) : Prop :=
  i.name = .layout → ∀ text limit, Text.decode i.bytes = .ok text →
    Json.parse text ≠ .error (.beyond limit)

theorem fileArgument_eq (i : Invocation ctx arguments) (argument : String) :
    fileArgument ctx.entry argument i.own = .ok (i.path, i.bytes) := by
  have hNull : ¬ i.path.toList.contains '\x00' := by
    rw [List.contains_iff_mem]
    exact i.no_null
  rw [fileArgument, i.one_path]
  dsimp only
  rw [if_neg hNull, i.file]
  rfl

theorem answers_runNamed (i : Invocation ctx arguments) (hLimits : i.WithinLimits) :
    ∃ r, runNamed ctx i.settings i.level i.name i.rest = .ok r ∧
      r.Answers ctx.time i.level i.Refused := by
  have hFile := i.fileArgument_eq
  have hRead := i.read_own
  unfold runNamed Refused
  cases hName : i.name with
  | parse =>
    rw [hName] at hRead
    refine ⟨_, ?_, answers_readSheet .strict i.path i.bytes fun name sheet _ => sheet.report name⟩
    unfold runParse
    rw [show Arguments.read [helpOption] true i.rest = .ok i.own from hRead]
    simp only [Except.mapError, i.no_help, hFile, bind, Except.bind, Bool.false_eq_true, if_false]
    rfl
  | validate =>
    rw [hName] at hRead
    refine ⟨_, ?_, answers_readSheet (chosenMode i.settings i.own) i.path i.bytes
      Stylesheet.checkReport⟩
    unfold runValidate
    rw [show Arguments.read validateOptions true i.rest = .ok i.own from hRead]
    simp only [Except.mapError, i.no_help, hFile, bind, Except.bind, Bool.false_eq_true, if_false]
    rfl
  | layout =>
    rw [hName] at hRead
    obtain ⟨width, hWidth⟩ := i.width hName
    exact answers_runLayout hRead i.no_help hWidth (hFile "TREE") (hLimits hName)

theorem run_eq (i : Invocation ctx arguments) {r : Result}
    (h : runNamed ctx i.settings i.level i.name i.rest = .ok r) : run ctx arguments = .ok r := by
  unfold run
  rw [i.request]
  simp only [Except.mapError, bind, Except.bind, Request.answer, runWith, i.configured, i.leveled,
    h]

end Invocation

/-- A command that is called as it should be fails exactly if its file is refused. Then it prints
nothing, and behind its log records it reports the message of the refusal, whose only characters
that are not printable, line feeds among them, are those of the keys or of the path that it takes
over. Otherwise the command succeeds, and log records are all that it reports. -/
theorem run_fails_iff_refused {ctx : Context} {arguments : List String}
    (i : Invocation ctx arguments) (hLimits : i.WithinLimits) :
    ∃ r, run ctx arguments = .ok r ∧
      (r.exitCode = 1 ↔ ∃ message taken, i.Refused message taken) ∧
      (∀ message taken, i.Refused message taken → r.output = "" ∧
        (∃ records,
          r.errors = LogRecord.lines ctx.time i.level records ++ printed message ++ "\n") ∧
        (∀ c ∈ (printed message).toList,
          Text.isPrintable c = true ∨ ∃ s ∈ taken, c ∈ s.toList) ∧
        ('\n' ∈ (printed message).toList ↔ ∃ s ∈ taken, '\n' ∈ s.toList)) ∧
      ((∀ message taken, ¬ i.Refused message taken) → r.exitCode = 0 ∧
        ∃ records, r.errors = LogRecord.lines ctx.time i.level records) := by
  obtain ⟨r, hRun, hAnswers⟩ := i.answers_runNamed hLimits
  refine ⟨r, i.run_eq hRun, ⟨fun hExit => ?_, ?_⟩, fun message taken hRefused => ?_,
    fun hNone => ?_⟩
  · by_contra hNone
    have hSuccess := (hAnswers.succeeds fun message taken h => hNone ⟨message, taken, h⟩).exitCode
    omega
  · rintro ⟨message, taken, hRefused⟩
    exact (hAnswers.fails message taken hRefused).exitCode
  · have hFails := hAnswers.fails message taken hRefused
    exact ⟨hFails.output, hFails.errors, hFails.shown, hFails.newline_mem_iff⟩
  · have hSucceeds := hAnswers.succeeds hNone
    exact ⟨hSucceeds.exitCode, hSucceeds.errors⟩

/-! ## A key with a line feed -/

/-- A tree whose only key is unknown. -/
def brokenKey : String := "\x7b\"a\\nb\": \"\"\x7d"

def brokenKeyContext : Context where
  time := "12:00"
  environment := fun _ => none
  entry := fun path => if path = "t.json" then .file brokenKey.toUTF8 else .missing

def brokenKeyLayout : Invocation brokenKeyContext ["layout", "t.json"] where
  chosen := none
  name := .layout
  rest := ["t.json"]
  settings := .initial
  level := .warning
  own := ⟨[], ["t.json"]⟩
  path := "t.json"
  bytes := brokenKey.toUTF8
  request := rfl
  configured := rfl
  leveled := rfl
  read_own := rfl
  no_help := rfl
  width := fun _ => ⟨_, rfl⟩
  one_path := rfl
  no_null := by decide
  file := rfl

theorem decode_brokenKey : Text.decode brokenKey.toUTF8 = .ok brokenKey.toList := by
  rw [Text.decode_toUTF8]
  rfl

theorem parse_brokenKey : Json.parse brokenKey.toList = .ok (.object [("a\nb", .string "")]) := by
  have hChars : brokenKey.toList =
      ['\x7b', '"', 'a', '\\', 'n', 'b', '"', ':', ' ', '"', '"', '\x7d'] := rfl
  rw [hChars]
  cbv

theorem ofJson_brokenKey : Element.ofJson (.object [("a\nb", .string "")]) =
    .error (.node [] (.unknownKeys ["a\nb"])) := by
  have hData : NodeData.ofJson (.object [("a\nb", .string "")]) =
      .error (.unknownKeys ["a\nb"]) := by cbv
  rw [Element.ofJson, Element.ofJsonAt_eq, hData]

def brokenKeyMessage : String := "Layout error: root: unknown key(s) a\nb"

theorem brokenKeyLayout_refused : brokenKeyLayout.Refused brokenKeyMessage ["a\nb"] :=
  TreeFails.data decode_brokenKey parse_brokenKey ofJson_brokenKey

theorem brokenKeyLayout_withinLimits : brokenKeyLayout.WithinLimits := by
  intro _ text limit hText hParse
  obtain rfl := Except.ok.inj (decode_brokenKey.symm.trans hText)
  cases parse_brokenKey.symm.trans hParse

theorem run_fails_iff_refused_brokenKey :
    brokenKeyLayout.WithinLimits ∧ brokenKeyLayout.Refused brokenKeyMessage ["a\nb"] ∧
      ∃ r, run brokenKeyContext ["layout", "t.json"] = .ok r ∧ r.exitCode = 1 ∧ r.output = "" ∧
        (∃ records, r.errors =
          LogRecord.lines "12:00" .warning records ++ printed brokenKeyMessage ++ "\n") ∧
        '\n' ∈ (printed brokenKeyMessage).toList := by
  refine ⟨brokenKeyLayout_withinLimits, brokenKeyLayout_refused, ?_⟩
  obtain ⟨r, hRun, hExit, hRefused, -⟩ :=
    run_fails_iff_refused brokenKeyLayout brokenKeyLayout_withinLimits
  obtain ⟨hOutput, hErrors, -, hFeed⟩ := hRefused _ _ brokenKeyLayout_refused
  exact ⟨r, hRun, hExit.mpr ⟨_, _, brokenKeyLayout_refused⟩, hOutput, hErrors,
    hFeed.mpr ⟨_, List.mem_singleton_self _, by decide⟩⟩

/-- The message about a key that has a line feed is not one line, whatever the log records. -/
theorem run_brokenKey_two_lines :
    brokenKeyLayout.WithinLimits ∧ brokenKeyLayout.Refused brokenKeyMessage ["a\nb"] ∧
      run brokenKeyContext ["layout", "t.json"] =
        .ok ⟨1, "", "Layout error: root: unknown key(s) a\nb\n"⟩ ∧
      ¬ ∃ records line, "Layout error: root: unknown key(s) a\nb\n" =
        LogRecord.lines brokenKeyContext.time brokenKeyLayout.level records ++ line ++ "\n" ∧
          '\n' ∉ line.toList := by
  refine ⟨brokenKeyLayout_withinLimits, brokenKeyLayout_refused, ?_, ?_⟩
  · have hLayout : layoutFile Settings.initial.viewportWidth "t.json" brokenKey.toUTF8 =
        ([.treeLoaded "t.json"], .error (.file (.tree (.node [] (.unknownKeys ["a\nb"]))))) := by
      rw [layoutFile, ofFile_eq_ok decode_brokenKey parse_brokenKey]
      dsimp only
      rw [ofJson_brokenKey]
    have hMessage : printed "Layout error: root: unknown key(s) a\nb" =
        "Layout error: root: unknown key(s) a\nb" := by
      rw [printed, Text.withoutStyles_eq_self (by decide), String.ofList_toList]
    have hRun := brokenKeyLayout.run_eq (runLayout_of_error brokenKeyLayout.read_own
      brokenKeyLayout.no_help rfl (brokenKeyLayout.fileArgument_eq "TREE") hLayout nofun)
    rw [hRun, Result.failed, printed_line]
    exact congrArg (fun line => Except.ok (Result.mk 1 "" ("" ++ (line ++ "\n")))) hMessage
  · rintro ⟨records, line, hErrors, hLine⟩
    rcases lines_eq_empty_or brokenKeyContext.time brokenKeyLayout.level records with
      hNone | ⟨rest, hTime⟩
    · rw [hNone, String.empty_append] at hErrors
      have h := congrArg String.toList hErrors
      rw [String.toList_append] at h
      have hChars : line.toList ++ ['\n'] =
          "Layout error: root: unknown key(s) a\nb".toList ++ ['\n'] := h.symm
      rw [List.append_cancel_right hChars] at hLine
      exact hLine (by decide)
    · have h := congrArg String.toList hErrors
      rw [String.toList_append, String.toList_append, ← hTime] at h
      cases h

end Command

end BlockFlow
