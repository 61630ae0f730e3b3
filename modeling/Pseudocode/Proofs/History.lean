import Pseudocode.Proofs.Conversation
import Pseudocode.Session

/-!
# Histories

A session is its history.  What it has collected, what its names stand for, what scans it has given
out and what it raised last can all be told from the requests that were made of it
(`session_after`): there is nothing else that a session remembers.  The definitions here
read a history backwards, from the latest request to the first; none of them knows a
session.  The route:

* a name is found to stand for what it was opened with last, and to have the scan of that as
  its result if it has been run since (`held?_openSource`, `held?_run`);
* `Reflects`: a session has collected, opened, given out and raised what a history tells;
* `Reflects.step`: one request made of such a session leads to one that reflects the history
  with this request, by cases on the request;
* `reflects_after`: hence a session reflects every history that led to it, by induction on the
  history.
-/

namespace Pseudocode.Session

/-- The requests that have been made of a session, the latest one first. -/
abbrev History := List Request

/-- The session in which a history ends. -/
def after : History → Session
  | [] => start
  | r :: past => ((after past).step r).2

namespace History

/-- What the name stands for: the source that it was opened with last, and whether its
    diagnostics are to be collected. -/
def opened? (name : Text) : History → Option (Source × Bool)
  | [] => none
  | .openSource n source collects :: past =>
    if name = n then some (source, collects) else opened? name past
  | _ :: past => opened? name past

/-- The scan of the source that the name stands for, if it has been run since it was opened. -/
def result? (name : Text) : History → Option Scan
  | [] => none
  | .openSource n _ _ :: past => if name = n then none else result? name past
  | .run n :: past =>
    if name = n then (opened? name past).map (·.1.scan) else result? name past
  | _ :: past => result? name past

/-- What a request adds to the collected diagnostics: a scan adds what it finds, and so does
    the first run of a source that is to be collected. -/
def adds (past : History) : Request → Diagnostics
  | .scan source => source.scan.diagnostics
  | .run name =>
    match opened? name past, result? name past with
    | some (source, true), none => source.scan.diagnostics
    | _, _ => []
  | .add d => [d]
  | _ => []

/-- Whether a request clears what is collected.  An answer at the prompt does, too. -/
def clears : Request → Bool
  | .clear => true
  | .prompt lines => !lines.isEmpty
  | _ => false

/-- All that was added since the last request that clears, in order. -/
def sinceClear : History → Diagnostics
  | [] => []
  | r :: past => if clears r then [] else sinceClear past ++ adds past r

/-- The scan that a request gives out. -/
def gives? (past : History) : Request → Option Scan
  | .scan source => some source.scan
  | .run name => (opened? name past).map (·.1.scan)
  | _ => none

/-- All scans that were given out, in order. -/
def givenOut : History → List Scan
  | [] => []
  | r :: past => givenOut past ++ (gives? past r).toList

/-- What is raised for diagnostics: one group of them all, and nothing if there are none. -/
def raised? : Diagnostics → Option ErrorGroup
  | [] => none
  | d :: ds => some ⟨d :: ds, List.cons_ne_nil d ds⟩

/-- What was raised last. -/
def lastRaised? : History → Option ErrorGroup
  | [] => none
  | .raise :: past => (raised? (sinceClear past)).or (lastRaised? past)
  | _ :: past => lastRaised? past

end History

open History

/-! ## Parts of a session -/

theorem lookup_filter_of_ne {l : List (Text × OpenSource)} {name other : Text}
    (apart : other ≠ name) : (l.filter (·.1 != name)).lookup other = l.lookup other := by
  induction l with
  | nil => rfl
  | cons entry l ih =>
      obtain ⟨key, o⟩ := entry
      by_cases same : key = name
      · subst same
        have drop : ((key, o) :: l).filter (·.1 != key) = l.filter (·.1 != key) :=
          List.filter_cons_of_neg (by simp)
        rw [drop, ih, List.lookup_cons, beq_eq_false_iff_ne.mpr apart]
      · have keep : ((key, o) :: l).filter (·.1 != name) = (key, o) :: l.filter (·.1 != name) :=
          List.filter_cons_of_pos (by simpa using same)
        rw [keep, List.lookup_cons, List.lookup_cons, ih]

/-- A name stands for what was put under it last, and other names for what they stood for. -/
theorem find?_put (s : Session) (name other : Text) (o : OpenSource) :
    (s.put name o).find? other = if other = name then some o else s.find? other := by
  show ((name, o) :: s.opened.filter (·.1 != name)).lookup other = _
  rw [List.lookup_cons]
  by_cases same : other = name
  · rw [if_pos same, same, beq_self_eq_true]
  · rw [if_neg same, beq_eq_false_iff_ne.mpr same]
    exact lookup_filter_of_ne same

theorem group?_eq_raised? (ds : Diagnostics) : ds.group? = raised? ds := by
  cases ds with
  | nil => rfl
  | cons d ds => exact dif_neg (List.cons_ne_nil d ds)

/-! ## Names -/

/-- What a name is to be found to stand for: its source, and its result if it has one. -/
def held? (name : Text) (past : History) : Option OpenSource :=
  (opened? name past).map fun o => ⟨o.1, o.2, result? name past⟩

theorem held?_openSource (name other : Text) (source : Source) (collects : Bool)
    (past : History) : held? other (.openSource name source collects :: past) =
      if other = name then some ⟨source, collects, none⟩ else held? other past := by
  show Option.map (fun o => OpenSource.mk o.1 o.2 (if other = name then none else _))
    (if other = name then some (source, collects) else opened? other past) = _
  by_cases same : other = name
  · rw [if_pos same, if_pos same, if_pos same]
    rfl
  · rw [if_neg same, if_neg same, if_neg same]
    rfl

theorem held?_run (name other : Text) (past : History) : held? other (.run name :: past) =
    if other = name then (held? name past).map fun o => { o with scan := some o.source.scan }
    else held? other past := by
  show Option.map (fun o => OpenSource.mk o.1 o.2
    (if other = name then (opened? other past).map (·.1.scan) else result? other past))
      (opened? other past) = _
  by_cases same : other = name
  · rw [if_pos same, if_pos same, same, held?]
    cases opened? name past <;> rfl
  · rw [if_neg same, if_neg same]
    rfl

/-- What a name has as result is the scan of the source that it stands for. -/
theorem result?_eq_none_or (name : Text) (past : History) :
    result? name past = none ∨ result? name past = (opened? name past).map (·.1.scan) := by
  induction past with
  | nil => exact Or.inl rfl
  | cons r past ih =>
      cases r with
      | openSource n source collects =>
          show (if name = n then none else result? name past) = none ∨
            (if name = n then none else result? name past) =
              (if name = n then some (source, collects) else opened? name past).map (·.1.scan)
          by_cases same : name = n
          · exact Or.inl (if_pos same)
          · rw [if_neg same, if_neg same]
            exact ih
      | run n =>
          show (if name = n then (opened? name past).map (·.1.scan) else result? name past) = none ∨
            (if name = n then (opened? name past).map (·.1.scan) else result? name past) =
              (opened? name past).map (·.1.scan)
          by_cases same : name = n
          · exact Or.inr (if_pos same)
          · rw [if_neg same]
            exact ih
      | _ => exact ih

/-- The result that a name is found to have is the scan of its source. -/
theorem scan_of_held? {name : Text} {past : History} {o : OpenSource} {scan : Scan}
    (held : held? name past = some o) (known : o.scan = some scan) : scan = o.source.scan := by
  obtain ⟨⟨source, collects⟩, opened, rfl⟩ := Option.map_eq_some_iff.mp held
  have known : result? name past = some scan := known
  rcases result?_eq_none_or name past with none | cached
  · exact nomatch none.symm.trans known
  · rw [opened] at cached
    exact Option.some.inj (known.symm.trans cached)

/-- A name has a result only as long as it stands for a source. -/
theorem bind_scan_held? (name : Text) (past : History) :
    (held? name past).bind OpenSource.scan = result? name past := by
  rw [held?]
  cases opened : opened? name past with
  | none =>
      have unknown : result? name past = none := by
        rcases result?_eq_none_or name past with none | cached
        · exact none
        · rw [cached, opened]
          rfl
      exact unknown.symm
  | some o => rfl

/-! ## Steps -/

/-- The session is what the history tells. -/
structure Reflects (s : Session) (past : History) : Prop where
  collected : s.collected = sinceClear past
  given : s.given = givenOut past
  names (name : Text) : s.find? name = held? name past
  raised : s.lastGroup = lastRaised? past

/-- Running an open source gives its scan, whether it is scanned now or has been before. -/
theorem run_fst (s : Session) (name : Text) {o : OpenSource}
    (cached : ∀ scan, o.scan = some scan → scan = o.source.scan) :
    (s.run name o).1 = .ran o.scan.isSome o.source.scan := by
  obtain ⟨source, collects, scan⟩ := o
  cases scan with
  | none => rfl
  | some scan =>
      have same : scan = source.scan := cached scan rfl
      subst same
      rfl

/-- A run leaves the scan under the name, and nothing else is changed but what is collected. -/
theorem find?_run {s : Session} {name : Text} {o : OpenSource} (found : s.find? name = some o)
    (cached : ∀ scan, o.scan = some scan → scan = o.source.scan) (other : Text) :
    (s.run name o).2.find? other =
      if other = name then some { o with scan := some o.source.scan } else s.find? other := by
  obtain ⟨source, collects, scan⟩ := o
  cases scan with
  | none =>
      have put := find?_put s name other ⟨source, collects, some source.scan⟩
      cases collects <;> exact put
  | some scan =>
      have kept : scan = source.scan := cached scan rfl
      subst kept
      show s.find? other = _
      by_cases same : other = name
      · rw [if_pos same, same, found]
      · rw [if_neg same]

/-- A run collects the scan of its source if this is its first run and its diagnostics are to
    be collected, and nothing else. -/
theorem collected_run (s : Session) {name : Text} {past : History} {o : OpenSource}
    (held : held? name past = some o) :
    (s.run name o).2.collected = s.collected ++ adds past (.run name) := by
  obtain ⟨⟨source, collects⟩, opened, rfl⟩ := Option.map_eq_some_iff.mp held
  have adds_eq : adds past (.run name) =
      match some (source, collects), result? name past with
      | some (source, true), none => source.scan.diagnostics
      | _, _ => [] := by
    rw [← opened]
    rfl
  rw [adds_eq]
  cases result? name past with
  | some scan => cases collects <;> exact (List.append_nil _).symm
  | none =>
      cases collects with
      | false => exact (List.append_nil _).symm
      | true => rfl

/-- A run gives out the scan of its source. -/
theorem given_run (s : Session) (name : Text) {o : OpenSource}
    (cached : ∀ scan, o.scan = some scan → scan = o.source.scan) :
    (s.run name o).2.given = s.given ++ [o.source.scan] := by
  obtain ⟨source, collects, scan⟩ := o
  cases scan with
  | none => cases collects <;> rfl
  | some scan =>
      have same : scan = source.scan := cached scan rfl
      subst same
      rfl

theorem lastGroup_run (s : Session) (name : Text) (o : OpenSource) :
    (s.run name o).2.lastGroup = s.lastGroup := by
  obtain ⟨source, collects, scan⟩ := o
  cases scan with
  | none => cases collects <;> rfl
  | some scan => rfl

namespace Reflects

variable {s : Session} {past : History}

theorem start : Reflects start [] :=
  ⟨rfl, rfl, fun _ => rfl, rfl⟩

/-- A name can be run as soon as a source has been opened under it, and the answer is its
    scan. -/
theorem answer_run (h : Reflects s past) (name : Text) :
    (s.step (.run name)).1 =
      match opened? name past with
      | none => .error (.unknownSource name)
      | some (source, _) => .ok (.ran (result? name past).isSome source.scan) := by
  have found := h.names name
  cases opened : opened? name past with
  | none =>
      rw [held?, opened] at found
      simp only [step, found, Option.map_none]
  | some o =>
      have held : held? name past = some ⟨o.1, o.2, result? name past⟩ := by
        rw [held?, opened]
        rfl
      rw [held] at found
      have ran := Session.run_fst s name fun _ => scan_of_held? held
      simp only [step, found, ran]

/-- A source has a gate as soon as it has been run. -/
theorem answer_group (h : Reflects s past) (name : Text) :
    (s.step (.group name)).1 =
      match result? name past with
      | none => .error (.unknownSource name)
      | some scan => .ok (.group (raised? scan.diagnostics)) := by
  have result : (s.find? name).bind OpenSource.scan = result? name past := by
    rw [h.names name, bind_scan_held?]
  cases known : result? name past with
  | none =>
      rw [known] at result
      simp only [step, result]
  | some scan =>
      rw [known] at result
      simp only [step, result, group?_eq_raised?]

/-- The diagnostics of a scan that was given out can be asked for whatever came after it. -/
theorem answer_gate (h : Reflects s past) (number : Nat) :
    (s.step (.gate number)).1 =
      match (givenOut past)[number]? with
      | none => .error (.unknownScan number)
      | some scan => .ok (.group (raised? scan.diagnostics)) := by
  rw [← h.given]
  cases known : s.given[number]? with
  | none => simp only [step, known]
  | some scan => simp only [step, known, group?_eq_raised?]

/-- Opening a source puts the name to a new use. -/
theorem openSource (h : Reflects s past) (name : Text) (source : Source) (collects : Bool) :
    Reflects (s.put name ⟨source, collects, none⟩) (.openSource name source collects :: past) where
  collected := h.collected.trans (List.append_nil _).symm
  given := h.given.trans (List.append_nil _).symm
  names other := by
    rw [find?_put, held?_openSource, h.names other]
  raised := h.raised

theorem run (h : Reflects s past) (name : Text) :
    Reflects (s.step (.run name)).2 (.run name :: past) := by
  have found := h.names name
  cases held : held? name past with
  | none =>
      -- the name stands for nothing: the request is refused, and the session stays
      rw [held] at found
      have refused : (s.step (.run name)).2 = s := by
        simp only [step, found]
      have unopened : opened? name past = none := Option.map_eq_none_iff.mp held
      have nothing : adds past (.run name) = [] := by
        simp only [adds, unopened]
      have none : gives? past (.run name) = none := by
        rw [gives?, unopened]
        rfl
      rw [refused]
      refine ⟨?_, ?_, ?_, h.raised⟩
      · show s.collected = sinceClear past ++ adds past (.run name)
        rw [nothing, List.append_nil, h.collected]
      · show s.given = givenOut past ++ (gives? past (.run name)).toList
        rw [none, Option.toList_none, List.append_nil, h.given]
      · intro other
        rw [held?_run, held, h.names other]
        by_cases same : other = name
        · rw [if_pos same, same, held]
          rfl
        · rw [if_neg same]
  | some o =>
      rw [held] at found
      have ran : (s.step (.run name)).2 = (s.run name o).2 := by
        simp only [step, found]
      obtain ⟨⟨source, collects⟩, opened, source_eq⟩ := Option.map_eq_some_iff.mp held
      have gives : gives? past (.run name) = some o.source.scan := by
        rw [gives?, opened, ← source_eq]
        rfl
      rw [ran]
      refine ⟨?_, ?_, ?_, ?_⟩
      · rw [collected_run s held, h.collected]
        rfl
      · show _ = givenOut past ++ (gives? past (.run name)).toList
        rw [gives, given_run s name fun _ => scan_of_held? held, h.given]
        rfl
      · intro other
        rw [find?_run found fun _ => scan_of_held? held, held?_run, held, h.names other]
        rfl
      · exact (lastGroup_run s name o).trans h.raised

theorem group?_collected (h : Reflects s past) :
    s.collected.group? = raised? (sinceClear past) := by
  rw [h.collected, group?_eq_raised?]

/-- The session raises what it has collected, if there is anything. -/
theorem answer_raise (h : Reflects s past) :
    (s.step .raise).1 = .ok (.truth (raised? (sinceClear past)).isSome) := by
  have raised := h.group?_collected
  cases group : raised? (sinceClear past) with
  | none =>
      rw [group] at raised
      simp only [Session.step, raised, Option.isSome_none]
  | some g =>
      rw [group] at raised
      simp only [Session.step, raised, Option.isSome_some]

/-- Raising leaves everything but the group that was raised last. -/
theorem raise (h : Reflects s past) : Reflects (s.step .raise).2 (.raise :: past) := by
  have raised := h.group?_collected
  have kept : s.collected = sinceClear past ++ [] := by
    rw [h.collected, List.append_nil]
  have given : s.given = givenOut past ++ [] := by
    rw [h.given, List.append_nil]
  cases group : raised? (sinceClear past) with
  | none =>
      rw [group] at raised
      have same : (s.step .raise).2 = s := by
        simp only [step, raised]
      have last : lastRaised? (.raise :: past) = lastRaised? past := by
        show (raised? (sinceClear past)).or (lastRaised? past) = _
        rw [group]
        rfl
      rw [same]
      exact ⟨kept, given, h.names, h.raised.trans last.symm⟩
  | some g =>
      rw [group] at raised
      have new : (s.step .raise).2 = { s with lastGroup := some g } := by
        simp only [step, raised]
      have last : lastRaised? (.raise :: past) = some g := by
        show (raised? (sinceClear past)).or (lastRaised? past) = _
        rw [group]
        rfl
      rw [new]
      exact ⟨kept, given, h.names, last.symm⟩

/-- At the prompt everything collected is shown with the first line, and then forgotten. -/
theorem prompt (h : Reflects s past) (lines : List Text) :
    Reflects (s.step (.prompt lines)).2 (.prompt lines :: past) where
  collected := by
    show (Command.Prompt.run false s.collected lines).2 = sinceClear (.prompt lines :: past)
    rw [Command.Prompt.run_snd, h.collected]
    cases lines with
    | nil => exact (List.append_nil _).symm
    | cons x lines => rfl
  given := h.given.trans (List.append_nil _).symm
  names := h.names
  raised := h.raised

/-- A request adds to the history what it does to the session. -/
theorem step (h : Reflects s past) (r : Request) : Reflects (s.step r).2 (r :: past) := by
  -- what a request that only asks leaves collected and given out
  have kept : s.collected = sinceClear past ++ [] := by
    rw [h.collected, List.append_nil]
  have given : s.given = givenOut past ++ [] := by
    rw [h.given, List.append_nil]
  cases r with
  | scan source =>
      exact ⟨congrArg (· ++ source.scan.diagnostics) h.collected,
        congrArg (· ++ [source.scan]) h.given, h.names, h.raised⟩
  | openSource name source collects => exact h.openSource name source collects
  | run name => exact h.run name
  | group name =>
      have same : (s.step (.group name)).2 = s := by
        simp only [Session.step]
        split <;> rfl
      rw [same]
      exact ⟨kept, given, h.names, h.raised⟩
  | gate number =>
      have same : (s.step (.gate number)).2 = s := by
        simp only [Session.step]
        split <;> rfl
      rw [same]
      exact ⟨kept, given, h.names, h.raised⟩
  | add d => exact ⟨congrArg (· ++ [d]) h.collected, given, h.names, h.raised⟩
  | clear => exact ⟨rfl, given, h.names, h.raised⟩
  | raise => exact h.raise
  | prompt lines => exact h.prompt lines
  | hasErrors | errorCount | report | lastGroup => exact ⟨kept, given, h.names, h.raised⟩

end Reflects

theorem reflects_after (past : History) : Reflects (after past) past := by
  induction past with
  | nil => exact Reflects.start
  | cons r past ih => exact ih.step r

/-! ## What a session remembers -/

/-- **A session is its history.**  What is collected is what was added since it was last
    cleared, in order: every diagnostic that was added, and all diagnostics of every scan and of
    every first run of a source that is to be collected.  A scan and a run answer with the scan
    of their own source, whatever else was asked before, and a later run with that of the first.
    A gate raises the diagnostics of its scan, be it the last one of a name or any that was ever
    given out, and the session raises what it has collected, if there are any; what was raised last
    stays as it was raised. -/
theorem session_after (past : History) :
    (after past).collected = sinceClear past ∧
    (∀ source, ((after past).step (.scan source)).1 = .ok (.scanned source.scan)) ∧
    (∀ name, ((after past).step (.run name)).1 =
      match opened? name past with
      | none => .error (.unknownSource name)
      | some (source, _) => .ok (.ran (result? name past).isSome source.scan)) ∧
    (∀ name, ((after past).step (.group name)).1 =
      match result? name past with
      | none => .error (.unknownSource name)
      | some scan => .ok (.group (raised? scan.diagnostics))) ∧
    (∀ number, ((after past).step (.gate number)).1 =
      match (givenOut past)[number]? with
      | none => .error (.unknownScan number)
      | some scan => .ok (.group (raised? scan.diagnostics))) ∧
    ((after past).step .hasErrors).1 = .ok (.truth (decide (sinceClear past ≠ []))) ∧
    ((after past).step .errorCount).1 = .ok (.count (sinceClear past).length) ∧
    ((after past).step .report).1 = .ok (.text (sinceClear past).report) ∧
    ((after past).step .raise).1 = .ok (.truth (raised? (sinceClear past)).isSome) ∧
    ((after past).step .lastGroup).1 = .ok (.lastGroup (lastRaised? past)) := by
  have h := reflects_after past
  refine ⟨h.collected, fun _ => rfl, h.answer_run, h.answer_group, h.answer_gate, ?_, ?_, ?_,
    h.answer_raise, ?_⟩
  · show Except.ok (Answer.truth !(after past).collected.isEmpty) = _
    rw [h.collected]
    cases sinceClear past <;> rfl
  · show Except.ok (Answer.count (after past).collected.length) = _
    rw [h.collected]
  · show Except.ok (Answer.text (after past).collected.report) = _
    rw [h.collected]
  · show Except.ok (Answer.lastGroup (after past).lastGroup) = _
    rw [h.raised]

/-- A source is not collected again when it is run again after a clear. -/
example (source : Source) :
    sinceClear [.run ['a'], .clear, .run ['a'], .openSource ['a'] source true] = [] ∧
    sinceClear [.run ['a'], .openSource ['a'] source true] = source.scan.diagnostics :=
  ⟨rfl, rfl⟩

end Pseudocode.Session
