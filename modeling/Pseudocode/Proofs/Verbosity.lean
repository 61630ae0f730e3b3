import Mathlib.Data.List.Forall2
import Pseudocode.Proofs.Isolation

/-!
# Verbosity

A verbose call leaves the same behind as the same call that is not verbose, but for records on
standard error (`verbose_adds_records`).  The route:

* a flag only sets what it stands for, so where among the options it is given makes no
  difference to the others (`Arguments.parse_insert_verbose`);
* standard error falls into *stretches*, records with what is told to everyone behind them, and
  a run tells the same stretches to everyone, with the records or without them (`Shows`);
* the stretches of a run are one that opens it, and one for each scan (`Parts`).
-/

namespace Pseudocode.Command

/-! ## The flag -/

namespace Arguments

/-- The arguments with the flag for records. -/
def loud (a : Arguments) : Arguments :=
  { a with verbose := true }

variable (a : Arguments)

theorem withLetters_loud (letters : Text) :
    a.loud.withLetters letters = (a.withLetters letters).map loud := by
  induction letters generalizing a with
  | nil => rfl
  | cons c rest ih =>
      rw [withLetters, withLetters]
      by_cases flag : c = 'v'
      · rw [if_pos flag, if_pos flag]
        exact ih { a with verbose := true }
      · rw [if_neg flag, if_neg flag]
        rfl

theorem withLongOption?_loud (name : Text) :
    a.loud.withLongOption? name = (a.withLongOption? name).map loud := by
  unfold withLongOption?
  split
  · rfl
  split
  · rfl
  split <;> rfl

theorem withOption_loud (option : Text) :
    a.loud.withOption option = (a.withOption option).map loud := by
  unfold withOption
  simp only
  rw [withLongOption?_loud]
  cases a.withLongOption? (option.takeWhile (· != '=')) with
  | some b =>
      show (if _ then _ else _) = Except.map _ (if _ then _ else _)
      split <;> rfl
  | none =>
      show (if _ then _ else _) = Except.map _ (if _ then _ else _)
      split
      · rfl
      · exact withLetters_loud a _

theorem withAll_loud (arguments : List Text) :
    a.loud.withAll arguments = (a.withAll arguments).map loud := by
  induction arguments generalizing a with
  | nil => rfl
  | cons argument rest ih =>
      rw [withAll, withAll]
      split
      · rfl
      split
      · rw [withOption_loud]
        cases a.withOption argument with
        | ok b => exact ih b
        | error e => rfl
      · exact ih { a with operands := a.operands ++ [argument] }

/-- The flag may stand wherever options are still read. -/
theorem withAll_insert_verbose {before : List Text} (options : "--".toList ∉ before)
    (after : List Text) :
    a.withAll (before ++ "-v".toList :: after) = (a.withAll (before ++ after)).map loud := by
  induction before generalizing a with
  | nil =>
      have flag : a.withAll ("-v".toList :: after) = a.loud.withAll after := rfl
      rw [List.nil_append, List.nil_append, flag, withAll_loud]
  | cons argument before ih =>
      obtain ⟨first, later⟩ := not_or.mp (mt List.mem_cons.mpr options)
      rw [List.cons_append, List.cons_append, withAll, withAll, if_neg (Ne.symm first),
        if_neg (Ne.symm first)]
      split
      · cases a.withOption argument with
        | ok b => exact ih b later
        | error e => rfl
      · exact ih _ later

theorem parse_insert_verbose {before after : List Text} {a : Arguments}
    (options : "--".toList ∉ before) (parses : parse (before ++ after) = .ok a) :
    parse (before ++ "-v".toList :: after) = .ok a.loud := by
  have read : empty.withAll (before ++ after) = .ok a := parses
  rw [parse, withAll_insert_verbose empty options, read]
  rfl

end Arguments

/-! ## Stretches of standard error -/

/-- A stretch of what a run writes on standard error: records, and behind them what is told to
    everyone. -/
structure Stretch where
  records : List Text
  told : Text

/-- The stretch as it is written, with its records or without them. -/
def Stretch.stderr (verbose : Bool) (s : Stretch) : Text :=
  (if verbose then s.records.flatMap logged else []) ++ s.told

/-- The events of a run that is verbose or not.  On standard output both write the same.  On
    standard error both show the stretches one after the other, the verbose run with their records
    and the other one without them, and the verbose run shows the trace behind them. -/
structure Shows (events : Bool → List Event) (stretches : List Stretch) (trace : Text) :
    Prop where
  stdout : (events true).flatMap Event.stdout = (events false).flatMap Event.stdout
  stderr (verbose : Bool) : (events verbose).flatMap Event.stderr =
    stretches.flatMap (Stretch.stderr verbose) ++ if verbose then trace else []

/-! ### Stretches of a scan -/

/-- The record tells the diagnostic, with its message and its location. -/
def RecordedAs (d : Diagnostic) (record : Text) : Prop :=
  ∃ l, d.location = some l ∧
    record = "Lexical error: ".toList ++ d.message ++ " at ".toList ++ l.text

/-- The stretch has the records of the scan: one for each diagnostic, in the order of their
    locations, and behind them one with the number of tokens, the end token among them, and the
    number of diagnostics.  What it tells comes behind all of them. -/
structure Stretch.OfScan (s : Stretch) (scan : Scan) (told : Text) : Prop where
  ordered : (scan.diagnostics.filterMap Diagnostic.location).Pairwise Location.Precedes
  records : ∃ reports, List.Forall₂ RecordedAs scan.diagnostics reports ∧
    s.records = reports ++ ["Scanned ".toList ++ scan.file ++ ": ".toList ++
      Text.ofNat scan.tokens.length ++ " tokens, ".toList ++
      Text.ofNat scan.diagnostics.length ++ " errors".toList]
  told : s.told = told

/-- Every diagnostic of a scan is recorded with its location. -/
theorem forall₂_recordedAs (src : Source) :
    List.Forall₂ RecordedAs src.scan.diagnostics
      (src.scan.diagnostics.map Diagnostic.record) := by
  rw [List.forall₂_map_right_iff, List.forall₂_same, src.diagnostics_eq_map_marks]
  intro d mem
  obtain ⟨m, -, rfl⟩ := List.mem_map.mp mem
  exact ⟨src.locationAt m.offset, rfl, rfl⟩

theorem ofScan_records (src : Source) (told : Text) :
    Stretch.OfScan ⟨src.scan.records, told⟩ src.scan told where
  ordered := pairwise_location_diagnostics src
  records := ⟨_, forall₂_recordedAs src, rfl⟩
  told := rfl

/-- The stretches of a run in the mode, and the trace that is shown behind them.  One record opens
    the run, and every scan has a stretch of its own, in which the errors found by it are told.
    A file that cannot be read has no records but the first one.  Behind a failure that nobody
    expects of a file comes its trace; no other run has one. -/
inductive Parts (files : Files) (input : Text) : Invocation → List Stretch → Text → Prop
  | prompt {stretches : List Stretch}
      (scans : List.Forall₂ (fun line s => Stretch.OfScan s (Prompt.source line).scan
        (Prompt.contribution line).stderr) input.lines stretches) :
      Parts files input .prompt (⟨["Starting interactive prompt".toList], []⟩ :: stretches) []
  | file {path : Text} {src : Source} {s : Stretch}
      (found : Run.source files (Path.normal path) = .ok src)
      (scan : Stretch.OfScan s src.scan
        ((src.scan.diagnostics.group?.map fun g => echoed g.text).getD [])) :
      Parts files input (.file path) [⟨["Scanning ".toList ++ Path.normal path], []⟩, s] []
  | unreadable {path : Text} {e : ReadFailure}
      (unread : Run.source files (Path.normal path) = .error e) (expected : e.Expected) :
      Parts files input (.file path) [⟨["Scanning ".toList ++ Path.normal path],
        echoed ("Error: ".toList ++ e.message)⟩] []
  | broken {path : Text} {e : ReadFailure}
      (unread : Run.source files (Path.normal path) = .error e) (unexpected : ¬ e.Expected) :
      Parts files input (.file path) [⟨["Scanning ".toList ++ Path.normal path],
        echoed ("Internal error: ".toList ++ e.message)⟩]
        (e.trace (files.frames e) ++ [Text.lineEnd])

/-! ## The stretches of runs -/

namespace Shows

variable {es es' : Bool → List Event} {ss ss' : List Stretch} {trace : Text}

theorem append (shows : Shows es ss []) (shows' : Shows es' ss' trace) :
    Shows (fun verbose => es verbose ++ es' verbose) (ss ++ ss') trace where
  stdout := by
    rw [List.flatMap_append, List.flatMap_append, shows.stdout, shows'.stdout]
  stderr verbose := by
    rw [List.flatMap_append, List.flatMap_append, shows.stderr, shows'.stderr, ite_self,
      List.append_nil, List.append_assoc]

/-- Records, and behind them what is the same in both runs but for a trace at the end. -/
theorem of_records (records : List Text) {later : Bool → List Event} {told : Text}
    (stdout : (later true).flatMap Event.stdout = (later false).flatMap Event.stdout)
    (tells : ∀ verbose, (later verbose).flatMap Event.stderr =
      told ++ if verbose then trace else []) :
    Shows (fun verbose => Event.records verbose records ++ later verbose)
      [⟨records, told⟩] trace where
  stdout := by
    rw [List.flatMap_append, List.flatMap_append, stdout_records, stdout_records, stdout]
  stderr verbose := by
    rw [List.flatMap_append, stderr_records, tells, List.flatMap_singleton, Stretch.stderr,
      List.append_assoc]

end Shows

theorem shows_record (record : Text) :
    Shows (fun verbose => Event.records verbose [record]) [⟨[record], []⟩] [] := by
  have shows := @Shows.of_records [] [record] (fun _ => []) [] rfl fun verbose => by
    rw [ite_self]
    rfl
  simp only [List.append_nil] at shows
  exact shows

/-- Behind the records of a scan come its tokens, which are not shown on standard error. -/
theorem shows_scan (scan : Scan) {later : List Event} {told : Text}
    (tells : later.flatMap Event.stderr = told) :
    Shows (fun verbose => Event.records verbose scan.records ++
      (scan.tokens.map (.echo ·.display) ++ later)) [⟨scan.records, told⟩] [] := by
  refine .of_records scan.records rfl fun verbose => ?_
  rw [List.flatMap_append, stderr_displays, List.nil_append, tells, ite_self, List.append_nil]

namespace Prompt

/-- The stretch of a line. -/
def stretch (line : Text) : Stretch :=
  ⟨(source line).scan.records, (contribution line).stderr⟩

theorem shows_answer (line : Text) :
    Shows (fun verbose => .prompt :: answer verbose line) [stretch line] [] := by
  have scan := shows_scan (source line).scan (stderr_complaints (source line).scan.diagnostics)
  simp only [← List.append_assoc] at scan
  exact ⟨congrArg ("> ".toList ++ ·) scan.stdout, scan.stderr⟩

/-- A conversation shows one stretch for each line. -/
theorem shows_run (lines : List Text) :
    Shows (fun verbose => (run verbose [] lines).1) (lines.map stretch) [] := by
  induction lines with
  | nil => exact ⟨rfl, fun verbose => by rw [ite_self]; rfl⟩
  | cons x lines ih =>
      simp only [run_cons]
      exact (shows_answer x).append ih

theorem forall₂_stretch (lines : List Text) :
    List.Forall₂ (fun line s => Stretch.OfScan s (source line).scan (contribution line).stderr)
      lines (lines.map stretch) := by
  rw [List.forall₂_map_right_iff, List.forall₂_same]
  exact fun line _ => ofScan_records (source line) _

end Prompt

namespace Failure

variable {f : Failure}

/-- What a failure of the users themselves writes does not depend on the flag. -/
theorem stderr_of_arguments (mendable : f.exitCode = .invalidArguments) (verbose : Bool) :
    (f.events verbose).flatMap Event.stderr = echoed ("Error: ".toList ++ f.message) := by
  rw [events, mendable]
  exact List.flatMap_singleton ..

/-- An internal error has a trace, for those who see records. -/
theorem stderr_of_internal (internal : f.exitCode = .internalError) (verbose : Bool) :
    (f.events verbose).flatMap Event.stderr =
      echoed ("Internal error: ".toList ++ f.message) ++
        if verbose then f.trace ++ [Text.lineEnd] else [] := by
  rw [events, internal]
  cases verbose with
  | false => rfl
  | true =>
      show _ ++ (_ ++ []) = _
      rw [List.append_nil]
      rfl

end Failure

namespace Run

variable {files : Files} {path : Text} (input : Text)

/-- The flag has no part in how a run ends. -/
theorem exit_ofInvocation (verbose : Bool) (files : Files) (mode : Invocation) :
    (ofInvocation verbose files input mode).exit = (ofInvocation false files input mode).exit := by
  cases mode with
  | notice n => rfl
  | prompt => rfl
  | file path =>
      show (ofFile verbose files _).exit = (ofFile false files _).exit
      cases read : source files (Path.normal path) with
      | error e =>
          rw [ofFile_of_error verbose read, ofFile_of_error false read]
          rfl
      | ok src =>
          by_cases clean : src.scan.diagnostics = []
          · rw [ofFile_of_clean verbose read clean, ofFile_of_clean false read clean]
          · rw [ofFile_of_faulty verbose read clean, ofFile_of_faulty false read clean]
            rfl

theorem shows_input : Shows (fun verbose => (ofInput verbose input).events)
    (⟨[promptRecord], []⟩ :: input.lines.map Prompt.stretch) [] :=
  (shows_record promptRecord).append (Prompt.shows_run input.lines)

theorem shows_source {src : Source} (found : source files path = .ok src) :
    Shows (fun verbose => (ofFile verbose files path).events)
      [⟨[fileRecord path], []⟩, ⟨src.scan.records,
        (src.scan.diagnostics.group?.map fun g => echoed g.text).getD []⟩] [] := by
  have opening := shows_record (fileRecord path)
  by_cases clean : src.scan.diagnostics = []
  · have group : src.scan.diagnostics.group? = none := dif_pos clean
    have shows := opening.append (@shows_scan src.scan [] [] rfl)
    simp only [List.append_nil, ← List.append_assoc] at shows
    simp only [fun verbose => ofFile_of_clean verbose found clean, group]
    exact shows
  · have group : src.scan.diagnostics.group? = some ⟨_, clean⟩ := dif_neg clean
    have complaint : [Event.complain src.scan.diagnostics.report].flatMap Event.stderr =
        echoed src.scan.diagnostics.report := List.flatMap_singleton ..
    have shows := opening.append (shows_scan src.scan complaint)
    simp only [← List.append_assoc] at shows
    simp only [fun verbose => ofFile_of_faulty verbose found clean, group]
    exact shows

/-- What is told of a file that cannot be read comes behind the first record. -/
theorem shows_unread {e : ReadFailure} {told trace : Text} (unread : source files path = .error e)
    (tells : ∀ verbose, ((Failure.ofRead e (files.frames e)).events verbose).flatMap Event.stderr =
      told ++ if verbose then trace else []) :
    Shows (fun verbose => (ofFile verbose files path).events)
      [⟨[fileRecord path], told⟩] trace := by
  simp only [fun verbose => ofFile_of_error verbose unread]
  refine .of_records [_] ?_ tells
  rw [Failure.stdout_events, Failure.stdout_events]

/-! ### The parts of a run -/

/-- The run has parts, and it has a trace just if it ends as an internal error. -/
def HasParts (files : Files) (input : Text) (mode : Invocation) : Prop :=
  ∃ stretches trace, Parts files input mode stretches trace ∧
    Shows (fun verbose => (ofInvocation verbose files input mode).events) stretches trace ∧
    ((ofInvocation false files input mode).exit = .internalError ↔ trace ≠ [])

theorem hasParts_of_source {src : Source} (found : source files (Path.normal path) = .ok src) :
    HasParts files input (.file path) := by
  refine ⟨_, [], .file found (ofScan_records src _), shows_source found,
    iff_of_false ?_ (absurd rfl)⟩
  show (ofFile false files _).exit ≠ _
  by_cases clean : src.scan.diagnostics = []
  · rw [ofFile_of_clean false found clean]
    exact nofun
  · rw [ofFile_of_faulty false found clean]
    exact nofun

theorem hasParts_of_error {e : ReadFailure} (unread : source files (Path.normal path) = .error e) :
    HasParts files input (.file path) := by
  have exit : (ofInvocation false files input (.file path)).exit = (Cause.ofRead e).exitCode := by
    show (ofFile false files _).exit = _
    rw [ofFile_of_error false unread]
    rfl
  rcases Cause.exitCode_ofRead e with ⟨expected, code⟩ | ⟨unexpected, code⟩
  · have tells (verbose : Bool) := @Failure.stderr_of_arguments
      (.ofRead e (files.frames e)) code verbose
    refine ⟨_, [], .unreadable unread expected, shows_unread unread fun verbose => ?_,
      iff_of_false ?_ (absurd rfl)⟩
    · rw [tells, ite_self, List.append_nil]
      rfl
    · rw [exit, code]
      exact nofun
  · have tells := @Failure.stderr_of_internal (.ofRead e (files.frames e)) code
    exact ⟨_, _, .broken unread unexpected, shows_unread unread tells,
      iff_of_true (exit.trans code) (List.append_ne_nil_of_right_ne_nil _ nofun)⟩

theorem hasParts (files : Files) {mode : Invocation} (works : ∀ n, mode ≠ .notice n) :
    HasParts files input mode := by
  cases mode with
  | notice n => exact absurd rfl (works n)
  | prompt =>
      exact ⟨_, [], .prompt (Prompt.forall₂_stretch _), shows_input input,
        iff_of_false nofun (absurd rfl)⟩
  | file path =>
      cases read : source files (Path.normal path) with
      | ok src => exact hasParts_of_source input read
      | error e => exact hasParts_of_error input read

end Run

/-! ## Two calls -/

/-- The call comes to the prompt or to a file: its arguments are right, the file can be looked
    up, and no notice is asked for. -/
structure Reaches (files : Files) (arguments : List Text) (a : Arguments) (mode : Invocation) :
    Prop where
  parses : Arguments.parse arguments = .ok a
  taken : a.target?.any ('\x00' ∈ ·) = false
  asks : a.invocation files.objection? = .ok mode
  works : ∀ n, mode ≠ .notice n

namespace Reaches

variable {files : Files} {arguments : List Text} {a : Arguments} {mode : Invocation}

theorem run_eq (reaches : Reaches files arguments a mode) (input : Text) :
    run files arguments input = .ok (Run.ofInvocation a.verbose files input mode).outcome := by
  simp only [run, reaches.parses, runSorted, reaches.asks]
  rw [reaches.taken]
  rfl

/-- With the flag a call comes to where it comes without it. -/
theorem insert_verbose {before after : List Text} (options : "--".toList ∉ before)
    (reaches : Reaches files (before ++ after) a mode) :
    Reaches files (before ++ "-v".toList :: after) a.loud mode where
  parses := Arguments.parse_insert_verbose options reaches.parses
  taken := reaches.taken
  asks := reaches.asks
  works := reaches.works

end Reaches

/-- **A verbose call adds records.**  Take a call that comes to the prompt or to a file, and the
    same call with the flag for records among its options.  Both end, with the same exit code
    and the same standard output.  If the first one has the flag already, they are the same.  If
    not, the standard error of the first one is what the stretches of the run tell to everyone,
    one after the other, and that of the second one has the records of each stretch in front of
    what it tells.  If the run ends as an internal error, then the second one shows a trace of it
    at the end, and no other run shows one. -/
theorem verbose_adds_records (files : Files) (input : Text) {before after : List Text}
    {a : Arguments} {mode : Invocation} (options : "--".toList ∉ before)
    (reaches : Reaches files (before ++ after) a mode) :
    ∃ quiet loud, run files (before ++ after) input = .ok quiet ∧
      run files (before ++ "-v".toList :: after) input = .ok loud ∧
      loud.exit = quiet.exit ∧ loud.transcript.stdout = quiet.transcript.stdout ∧
      (a.verbose = true → loud = quiet) ∧
      (a.verbose = false → ∃ stretches trace, Parts files input mode stretches trace ∧
        quiet.transcript.stderr = stretches.flatMap Stretch.told ∧
        loud.transcript.stderr =
          stretches.flatMap (fun s => s.records.flatMap logged ++ s.told) ++ trace ∧
        (loud.exit = .internalError ↔ trace ≠ [])) := by
  obtain ⟨stretches, trace, parts, shows, internal⟩ := Run.hasParts input files reaches.works
  have exit := Run.exit_ofInvocation input true files mode
  refine ⟨_, _, reaches.run_eq input, (reaches.insert_verbose options).run_eq input, ?_⟩
  cases flag : a.verbose with
  | true => exact ⟨rfl, rfl, fun _ => rfl, nofun⟩
  | false =>
      refine ⟨exit, shows.stdout, nofun, fun _ =>
        ⟨stretches, trace, parts, ?_, shows.stderr true, ?_⟩⟩
      · exact (shows.stderr false).trans (List.append_nil _)
      · rw [← internal, ← exit]
        rfl

/-- A file with two errors, and one that the path goes on behind, as if it were a directory. -/
theorem verbose_adds_records_two_failures :
    "--".toList ∉ ([] : List Text) ∧
    Reaches (.ofTree (FileTree.empty.addFile ['p'] (Utf8.encode "é\n\"".toList)))
      ([] ++ [['p']]) ⟨false, none, [['p']]⟩ (.file ['p']) ∧
    Reaches (.ofTree (FileTree.empty.addFile ['f'] []))
      ([] ++ ["f/x".toList]) ⟨false, none, ["f/x".toList]⟩ (.file "f/x".toList) ∧
    (∃ quiet loud,
      run (.ofTree (FileTree.empty.addFile ['p'] (Utf8.encode "é\n\"".toList))) [['p']] [] =
        .ok quiet ∧
      run (.ofTree (FileTree.empty.addFile ['p'] (Utf8.encode "é\n\"".toList)))
        ["-v".toList, ['p']] [] = .ok loud ∧
      loud.exit = quiet.exit ∧ loud.transcript.stdout = quiet.transcript.stdout ∧
      loud.transcript.stderr = ("DEBUG: Scanning p\n" ++
        "DEBUG: Lexical error: unexpected character 'é' (U+00E9) at p:1:1\n" ++
        "DEBUG: Lexical error: unterminated string at p:2:2\n" ++
        "DEBUG: Scanned p: 1 tokens, 2 errors\n").toList ++ quiet.transcript.stderr) ∧
    ∃ quiet loud,
      run (.ofTree (FileTree.empty.addFile ['f'] [])) ["f/x".toList] [] = .ok quiet ∧
      run (.ofTree (FileTree.empty.addFile ['f'] [])) ["-v".toList, "f/x".toList] [] = .ok loud ∧
      loud.exit = quiet.exit ∧ loud.transcript.stdout = quiet.transcript.stdout ∧
      loud.transcript.stderr = "DEBUG: Scanning f/x\n".toList ++ quiet.transcript.stderr ++
        ("Traceback (most recent call last):\n" ++
          "NotADirectoryError: [Errno 20] Not a directory: 'f/x'\n").toList := by
  have options : "--".toList ∉ ([] : List Text) := List.not_mem_nil
  have faulty : Reaches (.ofTree (FileTree.empty.addFile ['p'] (Utf8.encode "é\n\"".toList)))
      ([] ++ [['p']]) ⟨false, none, [['p']]⟩ (.file ['p']) :=
    ⟨by decide, by decide, by decide, nofun⟩
  have broken : Reaches (.ofTree (FileTree.empty.addFile ['f'] []))
      ([] ++ ["f/x".toList]) ⟨false, none, ["f/x".toList]⟩ (.file "f/x".toList) :=
    ⟨by decide, by decide, by decide, nofun⟩
  refine ⟨options, faulty, broken, ?_, ?_⟩
  · obtain ⟨quiet, loud, first, second, exit, stdout, -⟩ :=
      verbose_adds_records _ [] options faulty
    have stderr : (run (.ofTree (FileTree.empty.addFile ['p'] (Utf8.encode "é\n\"".toList)))
          ["-v".toList, ['p']] []).map (·.transcript.stderr) =
        (run (.ofTree (FileTree.empty.addFile ['p'] (Utf8.encode "é\n\"".toList)))
          [['p']] []).map (("DEBUG: Scanning p\n" ++
            "DEBUG: Lexical error: unexpected character 'é' (U+00E9) at p:1:1\n" ++
            "DEBUG: Lexical error: unterminated string at p:2:2\n" ++
            "DEBUG: Scanned p: 1 tokens, 2 errors\n").toList ++ ·.transcript.stderr) := by
      decide +kernel
    refine ⟨quiet, loud, first, second, exit, stdout, ?_⟩
    exact Except.ok.inj ((congrArg (Except.map _) second).symm.trans
      (stderr.trans (congrArg (Except.map _) first)))
  · obtain ⟨quiet, loud, first, second, exit, stdout, -⟩ :=
      verbose_adds_records _ [] options broken
    have stderr : (run (.ofTree (FileTree.empty.addFile ['f'] []))
          ["-v".toList, "f/x".toList] []).map (·.transcript.stderr) =
        (run (.ofTree (FileTree.empty.addFile ['f'] [])) ["f/x".toList] []).map
          ("DEBUG: Scanning f/x\n".toList ++ ·.transcript.stderr ++
            ("Traceback (most recent call last):\n" ++
              "NotADirectoryError: [Errno 20] Not a directory: 'f/x'\n").toList) := by
      decide +kernel
    refine ⟨quiet, loud, first, second, exit, stdout, ?_⟩
    exact Except.ok.inj ((congrArg (Except.map _) second).symm.trans
      (stderr.trans (congrArg (Except.map _) first)))

end Pseudocode.Command
