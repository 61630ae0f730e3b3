import Pseudocode.Command.Run
import Pseudocode.Proofs.Encoding
import Pseudocode.Proofs.Events
import Pseudocode.Proofs.Located
import Pseudocode.Proofs.NormalPath

/-!
# Runs on files

What a call that names one file leaves behind.

* If the file holds a text, standard output shows all tokens of its scan, with or without
  errors, and the exit code and standard error tell the diagnostics (`run_tells_scan`).
* If not, standard output stays empty, and the exit code is that of wrong arguments or of an
  internal error (`run_of_unreadable`).  It is the former if the path as it is spelled leads
  to a directory or to something forbidden, and if the file turns out to be missing,
  forbidden or no UTF-8; every other fault of the file system counts as internal
  (`run_through_file` is one).

Both follow from what the parts of a run write.  Records and failures write nothing on
standard output, and nobody sees the records of a run that is not verbose.
-/

namespace Pseudocode

/-- The failures that are expected of a file: it is missing, forbidden or no UTF-8. -/
inductive ReadFailure.Expected : ReadFailure → Prop
  | missing (path : Text) : Expected (.missing path)
  | forbidden (path : Text) : Expected (.forbidden path)
  | undecodable (e : Utf8.DecodeError) : Expected (.undecodable e)

namespace Command

/-! ## Runs on a file -/

namespace Run

/-- A failure adds nothing to standard output. -/
theorem stdout_failed (verbose : Bool) (before : List Event) (f : Failure) :
    (failed verbose before f).events.flatMap Event.stdout = before.flatMap Event.stdout := by
  rw [failed, List.flatMap_append, f.stdout_events, List.append_nil]

/-- The events of a scan before anything is said about its errors. -/
def shown (verbose : Bool) (path : Text) (scan : Scan) : List Event :=
  Event.records verbose [fileRecord path] ++ Event.records verbose scan.records ++
    scan.tokens.map (.echo ·.display)

theorem stdout_shown (verbose : Bool) (path : Text) (scan : Scan) :
    (shown verbose path scan).flatMap Event.stdout =
      scan.tokens.flatMap (echoed ·.display) := by
  rw [shown, List.flatMap_append, List.flatMap_append, stdout_records, stdout_records,
    stdout_displays]
  rfl

theorem stderr_shown (path : Text) (scan : Scan) :
    (shown false path scan).flatMap Event.stderr = [] := by
  rw [shown, List.flatMap_append, stderr_displays]
  rfl

variable {files : Files} {path : Text} {src : Source}

theorem ofFile_of_clean (verbose : Bool) (found : source files path = .ok src)
    (clean : src.scan.diagnostics = []) :
    ofFile verbose files path = ⟨shown verbose path src.scan, .success⟩ := by
  have group : src.scan.diagnostics.group? = none := dif_pos clean
  simp only [ofFile, found, group]
  rfl

theorem ofFile_of_faulty (verbose : Bool) (found : source files path = .ok src)
    (faulty : src.scan.diagnostics ≠ []) :
    ofFile verbose files path =
      failed verbose (shown verbose path src.scan) (.ofErrors ⟨src.scan.diagnostics, faulty⟩) := by
  have group : src.scan.diagnostics.group? = some ⟨_, faulty⟩ := dif_neg faulty
  simp only [ofFile, found, group]
  rfl

theorem ofFile_of_error (verbose : Bool) {e : ReadFailure}
    (unread : source files path = .error e) :
    ofFile verbose files path =
      failed verbose (Event.records verbose [fileRecord path]) (.ofRead e (files.frames e)) := by
  rw [ofFile, unread]

end Run

/-! ## Files that hold a text -/

/-- The file that the path is taken for holds the bytes.  Nothing speaks against the path as it
    is spelled, and the bytes are those at its normal form. -/
structure Files.Holds (files : Files) (path : Text) (bytes : List UInt8) : Prop where
  no_null : '\x00' ∉ path
  no_directory : files.isDirectory path = false
  allowed : files.isForbidden path = false
  found : files.read (Path.normal path) = .ok bytes

/-- What the path leads to as it is spelled is what the file holds. -/
theorem Files.holds_ofTree {tree : FileTree} {path : Text} {bytes : List UInt8}
    (found : tree.read path = .ok bytes) : (Files.ofTree tree).Holds path bytes := by
  have file : tree.find path = .ok (.file bytes) := FileTree.find_of_read found
  have no_directory : tree.isDirectory path = false := by
    rw [FileTree.isDirectory, file]
  exact ⟨(FileTree.usable_of_find file).no_null, no_directory, rfl, FileTree.read_normal found⟩

/-- No bytes that encode a text can be had from the file. -/
def Files.Unreadable (files : Files) (path : Text) : Prop :=
  ∀ text, ¬ files.Holds path (Utf8.encode text)

theorem Files.objection?_eq_none_iff {files : Files} {path : Text} :
    files.objection? path = none ↔
      files.isDirectory path = false ∧ files.isForbidden path = false := by
  rw [objection?]
  cases files.isDirectory path <;> cases files.isForbidden path <;> simp

theorem Files.fault_of_objection {files : Files} {path : Text} {e : UsageError}
    (objection : files.objection? path = some e) :
    files.isDirectory path = true ∨ files.isForbidden path = true := by
  by_contra accepted
  rw [not_or, Bool.not_eq_true, Bool.not_eq_true] at accepted
  rw [objection?_eq_none_iff.mpr accepted] at objection
  exact nomatch objection

theorem Files.Holds.source {files : Files} {path text : Text}
    (holds : files.Holds path (Utf8.encode text)) :
    Run.source files (Path.normal path) = .ok (.ofText text.unifyLineEnds (Path.normal path)) := by
  rw [Run.source, holds.found]
  exact Source.ofBytes_encode text (Path.normal path)

theorem Run.exists_read_of_source {files : Files} {path : Text} {src : Source}
    (found : source files path = .ok src) : ∃ text, files.read path = .ok (Utf8.encode text) := by
  rw [source] at found
  cases read : files.read path with
  | error e =>
      rw [read] at found
      exact nomatch found
  | ok bytes =>
      rw [read] at found
      obtain ⟨text, rfl⟩ := Source.exists_encode_of_ofBytes found
      exact ⟨text, rfl⟩

/-- If the file is unreadable but nothing speaks against its path, then reading it fails. -/
theorem Files.Unreadable.exists_source_eq_error {files : Files} {path : Text}
    (unreadable : files.Unreadable path) (no_null : '\x00' ∉ path)
    (no_objection : files.objection? path = none) :
    ∃ e, Run.source files (Path.normal path) = .error e := by
  cases found : Run.source files (Path.normal path) with
  | error e => exact ⟨e, rfl⟩
  | ok src =>
      obtain ⟨text, bytes⟩ := Run.exists_read_of_source found
      obtain ⟨no_directory, allowed⟩ := objection?_eq_none_iff.mp no_objection
      exact absurd ⟨no_null, no_directory, allowed, bytes⟩ (unreadable text)

/-! ## Calls that name one file -/

/-- The run of a call that names one file. -/
def Run.naming (verbose : Bool) (files : Files) (path : Text) : Run :=
  match files.objection? path with
  | some e => misused e
  | none => ofFile verbose files (Path.normal path)

section

variable {files : Files} {arguments : List Text} {verbose : Bool} {path : Text}

theorem run_of_null (asks : Arguments.parse arguments = .ok ⟨verbose, none, [path]⟩)
    (null : '\x00' ∈ path) (input : Text) : run files arguments input = .error .nullCharacter := by
  have refused : (Arguments.target? ⟨verbose, none, [path]⟩).any ('\x00' ∈ ·) = true :=
    decide_eq_true null
  simp only [run, asks]
  rw [if_pos refused]

theorem run_of_one_file (asks : Arguments.parse arguments = .ok ⟨verbose, none, [path]⟩)
    (no_null : '\x00' ∉ path) (input : Text) :
    run files arguments input = .ok (Run.naming verbose files path).outcome := by
  have taken : (Arguments.target? ⟨verbose, none, [path]⟩).any ('\x00' ∈ ·) ≠ true := by
    rw [ne_eq, Bool.not_eq_true]
    exact decide_eq_false no_null
  simp only [run, asks]
  rw [if_neg taken, runSorted, Run.naming]
  simp only [Arguments.invocation]
  cases files.objection? path <;> rfl

theorem Files.Holds.naming {text : Text} (holds : files.Holds path (Utf8.encode text)) :
    Run.naming verbose files path = Run.ofFile verbose files (Path.normal path) := by
  have none := objection?_eq_none_iff.mpr ⟨holds.no_directory, holds.allowed⟩
  rw [Run.naming, none]

end

/-! ## Files that are told -/

/-- The outcome tells the scan.  All tokens are shown, whatever else was found, and the
    diagnostics decide about the rest. -/
structure Outcome.Tells (o : Outcome) (scan : Scan) : Prop where
  stdout : o.transcript.stdout = scan.tokens.flatMap fun t => echoed t.display
  /-- A success without a word on standard error says that there are no diagnostics. -/
  success : o.exit.code = 0 ∧ o.transcript.stderr = [] ↔ scan.diagnostics = []
  /-- Diagnostics are shown in the order of their locations, with their number below. -/
  failure : scan.diagnostics ≠ [] →
    (scan.diagnostics.filterMap Diagnostic.location).Pairwise Location.Precedes ∧
    o.exit.code = 1 ∧
    o.transcript.stderr = echoed (Text.joinLines (scan.diagnostics.map Diagnostic.text ++
      [Text.ofNat scan.diagnostics.length ++
        (if scan.diagnostics.length = 1 then " error" else " errors").toList]))

theorem tells_of_clean {files : Files} {path : Text} {src : Source}
    (found : Run.source files path = .ok src) (clean : src.scan.diagnostics = []) :
    (Run.ofFile false files path).outcome.Tells src.scan := by
  rw [Run.ofFile_of_clean false found clean]
  exact {
    stdout := Run.stdout_shown false path src.scan
    success := iff_of_true ⟨rfl, Run.stderr_shown path src.scan⟩ clean
    failure := fun faulty => absurd clean faulty }

theorem tells_of_faulty {files : Files} {path : Text} {src : Source}
    (found : Run.source files path = .ok src) (faulty : src.scan.diagnostics ≠ []) :
    (Run.ofFile false files path).outcome.Tells src.scan := by
  rw [Run.ofFile_of_faulty false found faulty]
  constructor
  · exact (Run.stdout_failed _ _ _).trans (Run.stdout_shown false path src.scan)
  · refine iff_of_false ?_ faulty
    rintro ⟨success, -⟩
    exact nomatch success
  · intro _
    refine ⟨pairwise_location_diagnostics src, rfl, ?_⟩
    show List.flatMap Event.stderr (_ ++ [.complain src.scan.diagnostics.report]) = _
    rw [List.flatMap_append, Run.stderr_shown]
    exact List.append_nil _

theorem Files.Holds.tells {files : Files} {path text : Text}
    (holds : files.Holds path (Utf8.encode text)) :
    (Run.naming false files path).outcome.Tells
      (Source.ofText text.unifyLineEnds (Path.normal path)).scan := by
  rw [holds.naming]
  by_cases clean : (Source.ofText text.unifyLineEnds (Path.normal path)).scan.diagnostics = []
  · exact tells_of_clean holds.source clean
  · exact tells_of_faulty holds.source clean

/-! ## Files that cannot be told -/

theorem Cause.exitCode_ofRead (e : ReadFailure) :
    (e.Expected ∧ (Cause.ofRead e).exitCode = .invalidArguments) ∨
      (¬ e.Expected ∧ (Cause.ofRead e).exitCode = .internalError) := by
  cases e with
  | missing path => exact .inl ⟨.missing path, rfl⟩
  | forbidden path => exact .inl ⟨.forbidden path, rfl⟩
  | undecodable e => exact .inl ⟨.undecodable e, rfl⟩
  | _ => exact .inr ⟨nofun, rfl⟩

/-- A run on an unreadable file shows nothing.  It ends as a call with wrong arguments if the file
    is a directory or the failure is an expected one, and as an internal error if not. -/
theorem Run.naming_of_unreadable (verbose : Bool) {files : Files} {path : Text}
    (unreadable : files.Unreadable path) (no_null : '\x00' ∉ path) :
    (Run.naming verbose files path).events.flatMap Event.stdout = [] ∧
    ((Run.naming verbose files path).exit = .invalidArguments ∨
      (Run.naming verbose files path).exit = .internalError) ∧
    ((Run.naming verbose files path).exit = .invalidArguments ↔
      files.isDirectory path ∨ files.isForbidden path ∨
        ∃ e, source files (Path.normal path) = .error e ∧ e.Expected) := by
  rw [naming]
  cases objection : files.objection? path with
  | some e =>
      have fault := Files.fault_of_objection objection
      exact ⟨e.stdout_events, .inl rfl, iff_of_true rfl (fault.imp_right .inl)⟩
  | none =>
      obtain ⟨no_directory, allowed⟩ := Files.objection?_eq_none_iff.mp objection
      obtain ⟨e, unread⟩ := unreadable.exists_source_eq_error no_null objection
      have shown := stdout_failed verbose (Event.records verbose [fileRecord (Path.normal path)])
        (.ofRead e (files.frames e))
      have exit : (ofFile verbose files (Path.normal path)).exit =
          (Cause.ofRead e).exitCode := by
        rw [ofFile_of_error verbose unread]
        rfl
      rw [no_directory, allowed, unread, exit]
      rw [← ofFile_of_error verbose unread, stdout_records] at shown
      rcases Cause.exitCode_ofRead e with ⟨expected, code⟩ | ⟨unexpected, code⟩
      · exact ⟨shown, .inl code, iff_of_true code (.inr (.inr ⟨e, rfl, expected⟩))⟩
      · refine ⟨shown, .inr code, iff_of_false (fun same => ?_) ?_⟩
        · rw [code] at same
          exact nomatch same
        · rintro (directory | forbidden | ⟨e', same, expected⟩)
          · exact nomatch directory
          · exact nomatch forbidden
          · obtain rfl := Except.error.inj same
            exact unexpected expected

/-! ## Calls from outside -/

/-- **A call on a file tells its scan.**  Take a call that names one file and is not verbose.
    1. If the file holds a text, the outcome tells the scan of this text, with its line ends
       made alike and under the normal form of the path as its name.
    2. If not, standard output stays empty, and the exit code is neither that of a success nor
       that of lexical errors.  Only a path that no call can be given is refused altogether. -/
theorem run_tells_scan (files : Files) (input : Text) {arguments : List Text} {path : Text}
    (asks : Arguments.parse arguments = .ok ⟨false, none, [path]⟩) :
    (∀ text, files.Holds path (Utf8.encode text) →
      ∃ o, run files arguments input = .ok o ∧
        o.Tells (Source.ofText text.unifyLineEnds (Path.normal path)).scan) ∧
    (files.Unreadable path →
      match run files arguments input with
      | .ok o => o.transcript.stdout = [] ∧ o.exit.code ≠ 0 ∧ o.exit.code ≠ 1
      | .error r => r = .nullCharacter ∧ '\x00' ∈ path) := by
  constructor
  · intro text holds
    exact ⟨_, run_of_one_file asks holds.no_null input, holds.tells⟩
  · intro unreadable
    by_cases null : '\x00' ∈ path
    · rw [run_of_null asks null]
      exact ⟨rfl, null⟩
    · obtain ⟨shown, exit, -⟩ := Run.naming_of_unreadable _ unreadable null
      rw [run_of_one_file asks null]
      refine ⟨shown, ?_⟩
      show (Run.naming false files path).exit.code ≠ 0 ∧ (Run.naming false files path).exit.code ≠ 1
      rcases exit with arguments | internal
      · rw [arguments]
        decide
      · rw [internal]
        decide

/-- A file with two errors, whose lines end in CR LF, and a path with a component to spare, which
    the locations are without. -/
theorem run_tells_scan_two_errors :
    Arguments.parse ["./p".toList] = .ok ⟨false, none, ["./p".toList]⟩ ∧
    ∃ o, run (.ofTree (FileTree.empty.addFile ['p'] (Utf8.encode "é\r\n\"".toList)))
        ["./p".toList] [] = .ok o ∧
      o.transcript.stdout = "EOF  null\n".toList ∧ o.exit.code = 1 ∧
      o.transcript.stderr = ("p:1:1: error: unexpected character 'é' (U+00E9)\n" ++
        "    é\n    ^\n" ++
        "p:2:2: error: unterminated string\n    \"\n     ^\n" ++
        "hint: add closing '\"' to complete the string\n2 errors\n").toList := by
  have asks : Arguments.parse ["./p".toList] = .ok ⟨false, none, ["./p".toList]⟩ := by decide
  have holds : (Files.ofTree (FileTree.empty.addFile ['p'] (Utf8.encode "é\r\n\"".toList))).Holds
      "./p".toList (Utf8.encode "é\r\n\"".toList) :=
    Files.holds_ofTree (by decide)
  obtain ⟨o, outcome, tells⟩ := (run_tells_scan _ [] asks).1 _ holds
  have faulty : (Source.ofText (Text.unifyLineEnds "é\r\n\"".toList)
      (Path.normal "./p".toList)).scan.diagnostics ≠ [] := by
    decide +kernel
  obtain ⟨-, exit, errors⟩ := tells.failure faulty
  refine ⟨asks, o, outcome, ?_, exit, ?_⟩
  · rw [tells.stdout]
    decide +kernel
  · rw [errors]
    decide +kernel

/-- **A call on an unreadable file** shows nothing.  It ends as a call with wrong arguments if
    the path as it is spelled leads to a directory or to something forbidden, or if the file
    is found to be missing, forbidden or no UTF-8 when it is read.  Any other reason not to read
    it ends the call as an internal error. -/
theorem run_of_unreadable (files : Files) (input : Text) {arguments : List Text} {verbose : Bool}
    {path : Text} (asks : Arguments.parse arguments = .ok ⟨verbose, none, [path]⟩)
    (unreadable : files.Unreadable path) :
    match run files arguments input with
    | .ok o =>
      o.transcript.stdout = [] ∧ (o.exit = .invalidArguments ∨ o.exit = .internalError) ∧
      (o.exit = .invalidArguments ↔
        files.isDirectory path ∨ files.isForbidden path ∨
          ∃ e, Run.source files (Path.normal path) = .error e ∧ e.Expected)
    | .error r => r = .nullCharacter ∧ '\x00' ∈ path := by
  by_cases null : '\x00' ∈ path
  · rw [run_of_null asks null]
    exact ⟨rfl, null⟩
  · rw [run_of_one_file asks null]
    exact Run.naming_of_unreadable _ unreadable null

/-- A file that is missing. -/
theorem run_of_unreadable_missing :
    Arguments.parse ["q".toList] = .ok ⟨false, none, ["q".toList]⟩ ∧
    (Files.ofTree .empty).Unreadable "q".toList ∧
    ∃ o, run (.ofTree .empty) ["q".toList] [] = .ok o ∧
      o.transcript.stdout = [] ∧ o.exit = .invalidArguments := by
  have asks : Arguments.parse ["q".toList] = .ok ⟨false, none, ["q".toList]⟩ := by decide
  have missing : (Files.ofTree .empty).read (Path.normal "q".toList) =
      .error (.missing "q".toList) := by
    decide
  have unreadable : (Files.ofTree .empty).Unreadable "q".toList := by
    intro text holds
    have found := holds.found
    rw [missing] at found
    exact nomatch found
  have unread : Run.source (.ofTree .empty) (Path.normal "q".toList) =
      .error (.missing "q".toList) := by
    rw [Run.source, missing]
    rfl
  have told := run_of_unreadable _ [] asks unreadable
  rw [run_of_one_file asks (by decide)] at told
  obtain ⟨shown, -, exit⟩ := told
  have arguments := exit.mpr (.inr (.inr ⟨_, unread, .missing _⟩))
  exact ⟨asks, unreadable, _, run_of_one_file asks (by decide) [], shown, arguments⟩

/-- A file that the path goes on behind, as if it were a directory, is unreadable, and the call
    ends as an internal error. -/
theorem run_through_file :
    (FileTree.empty.addFile ['f'] []).read "f/x".toList = .error (.notDirectory "f/x".toList) ∧
    run (.ofTree (FileTree.empty.addFile ['f'] [])) ["f/x".toList] [] =
      .ok ⟨.internalError, [], "Internal error: [Errno 20] Not a directory: 'f/x'\n".toList⟩ := by
  decide +kernel

end Command

end Pseudocode
