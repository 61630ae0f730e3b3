import Mathlib.Data.List.Flatten
import Pseudocode.FileTree

/-!
# The normal form of a path

A file is opened under the normal form of its path.  The normal form has the root of the path and
its moving components in order, and none that stays where it is but for those at the front that
spell the root (`Path.components_normal`).  So it is its own normal form (`Path.normal_normal`).

In a tree it leads to the same place (`Place.ofPath_normal`), and if there is an entry that
the path leads to, it leads to the same entry (`FileTree.find_normal`).  It can lead to an entry
where the path fails: if `f` is a file, then nothing is found at `f/.`, whose normal form
is `f`.
-/

namespace Pseudocode

namespace Path

/-! ## Components that move -/

theorem split_ne_nil (path : Text) : split path ≠ [] := by
  cases path with
  | nil => exact List.cons_ne_nil _ _
  | cons c rest =>
      rw [split]
      split
      · exact List.cons_ne_nil _ _
      · split <;> exact List.cons_ne_nil _ _

/-- A character that is no slash goes to the front of the first part. -/
theorem exists_split_cons {c : Char} (other : c ≠ separator) (rest : Text) :
    ∃ part more, split rest = part :: more ∧ split (c :: rest) = (c :: part) :: more := by
  obtain ⟨part, more, parts⟩ := List.exists_cons_of_ne_nil (split_ne_nil rest)
  refine ⟨part, more, parts, ?_⟩
  rw [split, if_neg other, parts]

theorem split_eq_splitOn (path : Text) : split path = path.splitOn separator := by
  rw [List.splitOn_eq_splitOnP]
  induction path with
  | nil => exact List.splitOnP_nil.symm
  | cons c rest ih =>
      rw [List.splitOnP_cons_eq_if_modifyHead, ← ih]
      by_cases slash : c = separator
      · rw [split, if_pos slash, if_pos (beq_iff_eq.mpr slash)]
      · obtain ⟨part, more, parts, grown⟩ := exists_split_cons slash rest
        rw [grown, if_neg (mt beq_iff_eq.mp slash), parts]
        rfl

theorem separator_not_mem_of_mem_split {path part : Text} (mem : part ∈ split path) :
    separator ∉ part := by
  induction path generalizing part with
  | nil =>
      obtain rfl := List.mem_singleton.mp mem
      exact List.not_mem_nil
  | cons c rest ih =>
      by_cases slash : c = separator
      · rw [split, if_pos slash] at mem
        rcases List.mem_cons.mp mem with rfl | later
        · exact List.not_mem_nil
        · exact ih later
      · obtain ⟨first, more, parts, grown⟩ := exists_split_cons slash rest
        rw [grown] at mem
        rw [parts] at ih
        rcases List.mem_cons.mp mem with rfl | later
        · exact List.not_mem_cons_of_ne_of_not_mem (Ne.symm slash) (ih List.mem_cons_self)
        · exact ih (List.mem_cons_of_mem first later)

theorem moving_eq_filter (path : Text) :
    moving path = (split path).filter fun part => !part.isEmpty && part != here := by
  rw [moving, components]
  induction split path with
  | nil => rfl
  | cons part parts ih =>
      rw [List.map_cons, List.filter_cons, List.filter_cons, ih]
      cases empty : part.isEmpty <;> rfl

/-- The component leads somewhere else. -/
structure IsMoving (name : Text) : Prop where
  nonempty : name ≠ []
  elsewhere : name ≠ here
  single : separator ∉ name

theorem isMoving_of_mem {name path : Text} (mem : name ∈ moving path) : IsMoving name := by
  rw [moving_eq_filter] at mem
  obtain ⟨part, moves⟩ := List.mem_filter.mp mem
  obtain ⟨nonempty, elsewhere⟩ := Bool.and_eq_true_iff.mp moves
  refine ⟨?_, bne_iff_ne.mp elsewhere, separator_not_mem_of_mem_split part⟩
  rintro rfl
  exact nomatch nonempty

/-! ## Components of a spelling -/

section

variable {names : List Text} (moves : ∀ name ∈ names, IsMoving name)

include moves

theorem components_intercalate (some_name : names ≠ []) :
    components (List.intercalate [separator] names) = names := by
  have parts : split (List.intercalate [separator] names) = names := by
    rw [split_eq_splitOn]
    exact List.splitOn_intercalate separator (fun name mem => (moves name mem).single) some_name
  rw [components, parts]
  refine (List.map_congr_left fun name mem => if_neg ?_).trans (List.map_id names)
  exact mt List.isEmpty_iff.mp (moves name mem).nonempty

/-- Names that move do not start with a slash. -/
theorem takeWhile_intercalate :
    (List.intercalate [separator] names).takeWhile (· == separator) = [] := by
  cases names with
  | nil => rfl
  | cons name more =>
      obtain ⟨nonempty, -, single⟩ := moves name List.mem_cons_self
      obtain ⟨c, name, rfl⟩ := List.exists_cons_of_ne_nil nonempty
      have other : ¬ (c == separator) = true :=
        fun same => single (beq_iff_eq.mp same ▸ List.mem_cons_self)
      cases more with
      | nil => exact List.takeWhile_cons_of_neg other
      | cons next more =>
          rw [List.intercalate_cons_cons]
          exact List.takeWhile_cons_of_neg other

end

theorem root_cases (path : Text) :
    root path = [] ∨ root path = [separator] ∨ root path = [separator, separator] := by
  rw [root]
  split
  · exact .inl rfl
  · exact .inr (.inr rfl)
  · exact .inr (.inl rfl)

/-- A root is only steps that stay where they are. -/
theorem components_root_append (path rest : Text) :
    components (root path ++ rest) =
      List.replicate (root path).length here ++ components rest := by
  rcases root_cases path with e | e | e <;> rw [e] <;> rfl

theorem root_root_append (path : Text) {rest : Text}
    (relative : rest.takeWhile (· == separator) = []) : root (root path ++ rest) = root path := by
  have slashes : (root path ++ rest).takeWhile (· == separator) = root path := by
    rw [List.takeWhile_append_of_pos, relative, List.append_nil]
    rcases root_cases path with e | e | e <;> rw [e] <;> simp
  rw [root, slashes]
  rcases root_cases path with e | e | e <;> rw [e] <;> rfl

/-! ## Components of the normal form -/

theorem normal_cases (path : Text) :
    (normal path = here ∧ root path = [] ∧ moving path = []) ∨
      normal path = root path ++ List.intercalate [separator] (moving path) := by
  rw [normal]
  by_cases empty : (root path ++ List.intercalate [separator] (moving path)).isEmpty = true
  · obtain ⟨no_root, no_text⟩ := List.append_eq_nil_iff.mp (List.isEmpty_iff.mp empty)
    refine .inl ⟨if_pos empty, no_root, Decidable.byContradiction fun some_name => ?_⟩
    have spelled := components_intercalate (fun _ => isMoving_of_mem) some_name
    rw [no_text] at spelled
    have mem : here ∈ moving path := spelled ▸ List.mem_cons_self
    exact (isMoving_of_mem mem).elsewhere rfl
  · exact .inr (if_neg empty)

theorem normal_ne_nil (path : Text) : normal path ≠ [] := by
  rw [normal]
  split
  · exact List.cons_ne_nil _ _
  next nonempty => exact mt List.isEmpty_iff.mpr nonempty

/-- **The components of the normal form** are those of the path that move.  The ones in front
    of them spell the root, or stand alone. -/
theorem components_normal (path : Text) :
    ∃ n, components (normal path) = List.replicate n here ++ moving path := by
  rcases normal_cases path with ⟨still, -, no_name⟩ | spelled
  · rw [still, no_name]
    exact ⟨1, rfl⟩
  · rw [spelled, components_root_append]
    by_cases no_name : moving path = []
    · rw [no_name]
      exact ⟨(root path).length + 1, List.replicate_succ'.symm.trans (List.append_nil _).symm⟩
    · rw [components_intercalate (fun _ => isMoving_of_mem) no_name]
      exact ⟨_, rfl⟩

theorem filter_replicate_here_append (n : Nat) (names : List Text) :
    (List.replicate n here ++ names).filter (· != here) = names.filter (· != here) := by
  rw [List.filter_append, List.filter_replicate_of_neg (by decide), List.nil_append]

theorem filter_cons_of_ne {name : Text} (moves : name ≠ here) (names : List Text) :
    (name :: names).filter (· != here) = name :: names.filter (· != here) :=
  List.filter_cons_of_pos (p := (· != here)) (bne_iff_ne.mpr moves)

theorem moving_normal (path : Text) : moving (normal path) = moving path := by
  obtain ⟨n, names⟩ := components_normal path
  rw [moving, names, filter_replicate_here_append, moving, List.filter_filter]
  simp only [Bool.and_self]

theorem root_normal (path : Text) : root (normal path) = root path := by
  rcases normal_cases path with ⟨still, no_root, -⟩ | spelled
  · rw [still, no_root]
    rfl
  · rw [spelled, root_root_append path (takeWhile_intercalate fun _ => isMoving_of_mem)]

theorem isAbsolute_eq (path : Text) : isAbsolute path = !(root path).isEmpty := by
  cases path with
  | nil => rfl
  | cons c rest =>
      rw [isAbsolute, root, List.takeWhile_cons]
      by_cases slash : c = separator
      · rw [if_pos (beq_iff_eq.mpr slash), List.head?_cons, slash]
        split
        next none => exact nomatch none
        · rfl
        · rfl
      · rw [if_neg (mt beq_iff_eq.mp slash)]
        exact decide_eq_false (mt Option.some.inj slash)

/-- The normal form is normal. -/
theorem normal_normal (path : Text) : normal (normal path) = normal path := by
  rw [normal, root_normal, moving_normal, ← normal]

/-! ## Characters of the normal form -/

theorem intercalate_sublist {kept parts : List Text} (sublist : kept.Sublist parts) :
    (List.intercalate [separator] kept).Sublist (List.intercalate [separator] parts) := by
  induction sublist with
  | slnil => exact .slnil
  | @cons kept parts part _ ih =>
      cases parts with
      | nil => exact ih.trans (List.nil_sublist _)
      | cons next more =>
          rw [List.intercalate_cons_cons]
          exact ih.trans (List.sublist_append_right _ _)
  | @cons_cons kept parts part sublist ih =>
      cases parts with
      | nil =>
          obtain rfl := List.sublist_nil.mp sublist
          exact .refl _
      | cons next more =>
          rw [List.intercalate_cons_cons]
          cases kept with
          | nil =>
              rw [List.intercalate_singleton, List.append_assoc]
              exact List.sublist_append_left part _
          | cons name names =>
              rw [List.intercalate_cons_cons]
              exact (List.append_sublist_append_left _).mpr ih

theorem root_prefix_self (path : Text) : root path <+: path := by
  have slashes : path.takeWhile (· == separator) =
      List.replicate (path.takeWhile (· == separator)).length separator :=
    List.eq_replicate_of_mem fun c mem =>
      beq_iff_eq.mp (List.all_eq_true.mp List.all_takeWhile c mem)
  refine List.IsPrefix.trans ?_ (List.takeWhile_prefix (· == separator))
  rw [slashes, List.prefix_replicate_iff, root]
  split
  next => exact ⟨Nat.zero_le _, rfl⟩
  next two => exact ⟨Nat.le_of_eq two.symm, rfl⟩
  next some_slash _ => exact ⟨Nat.pos_of_ne_zero some_slash, rfl⟩

/-- The normal form is the path with characters left out, unless nothing would be left. -/
theorem normal_sublist (path : Text) : normal path = here ∨ (normal path).Sublist path := by
  rcases normal_cases path with ⟨still, -⟩ | spelled
  · exact .inl still
  · right
    obtain ⟨rest, whole⟩ := root_prefix_self path
    have behind : moving path = moving rest := by
      rw [← whole, moving, components_root_append, filter_replicate_here_append, ← moving]
    have kept : (moving rest).Sublist (split rest) := by
      rw [moving_eq_filter]
      exact List.filter_sublist
    have text : List.intercalate [separator] (split rest) = rest := by
      rw [split_eq_splitOn, List.intercalate_splitOn]
    rw [spelled, behind]
    conv => rhs; rw [← whole, ← text]
    exact (List.append_sublist_append_left _).mpr (intercalate_sublist kept)

end Path

/-! ## Places and entries -/

theorem Place.foldl_step_filter (names : List Text) (place : Place) :
    (names.filter (· != Path.here)).foldl step place = names.foldl step place := by
  induction names generalizing place with
  | nil => rfl
  | cons name rest ih =>
      by_cases still : name = Path.here
      · obtain rfl := still
        exact ih place
      · rw [Path.filter_cons_of_ne still, List.foldl_cons, List.foldl_cons, ih]

theorem Place.isAncestor_start (path : Text) : (start path).isAncestor := by
  rw [start]
  cases Path.isAbsolute path <;> rfl

theorem Place.start_normal (path : Text) : start (Path.normal path) = start path := by
  rw [start, start, Path.isAbsolute_eq, Path.isAbsolute_eq, Path.root_normal]

/-- The normal form leads to the same place. -/
theorem Place.ofPath_normal (path : Text) : ofPath (Path.normal path) = ofPath path := by
  have moving (path : Text) : ofPath path = (Path.moving path).foldl step (start path) :=
    (foldl_step_filter (Path.components path) (start path)).symm
  rw [moving, moving, start_normal, Path.moving_normal]

namespace FileTree

variable {tree : FileTree} {entry : Entry}

theorem walk_nil_eq_ok_iff {path : Text} {place : Place} :
    tree.walk path place [] = .ok entry ↔ tree.entry? place = some entry := by
  rw [walk]
  cases tree.entry? place with
  | none => exact iff_of_false nofun nofun
  | some other => exact ⟨fun same => congrArg some (Except.ok.inj same),
      fun same => congrArg Except.ok (Option.some.inj same)⟩

/-- What it takes to follow one component of a path. -/
theorem walk_cons_eq_ok_iff {path name : Text} {place : Place} {rest : List Text} :
    tree.walk path place (name :: rest) = .ok entry ↔
      tree.entry? place = some .directory ∧ (Utf8.encode name).length ≤ nameLimit ∧
        tree.walk path (place.step name) rest = .ok entry := by
  rw [walk]
  cases tree.entry? place with
  | none => exact iff_of_false nofun (fun follows => nomatch follows.1)
  | some here =>
      cases here with
      | file bytes => exact iff_of_false nofun (fun follows => nomatch follows.1)
      | directory =>
          by_cases long : nameLimit < (Utf8.encode name).length
          · simp only [if_pos long]
            exact iff_of_false nofun fun follows => Nat.not_le.mpr long follows.2.1
          · simp only [if_neg long]
            exact ⟨fun found => ⟨trivial, Nat.not_lt.mp long, found⟩, fun follows => follows.2.2⟩

/-- A walk that finds an entry needs none of the components that stay where they are. -/
theorem walk_filter {path path' : Text} {place : Place} {names : List Text}
    (found : tree.walk path place names = .ok entry) :
    tree.walk path' place (names.filter (· != Path.here)) = .ok entry := by
  induction names generalizing place with
  | nil => exact walk_nil_eq_ok_iff.mpr (walk_nil_eq_ok_iff.mp found)
  | cons name rest ih =>
      obtain ⟨directory, short, later⟩ := walk_cons_eq_ok_iff.mp found
      by_cases still : name = Path.here
      · obtain rfl := still
        exact ih later
      · rw [Path.filter_cons_of_ne still]
        exact walk_cons_eq_ok_iff.mpr ⟨directory, short, ih later⟩

/-- From the working directory, or from one above it, components that stay there lead on. -/
theorem walk_replicate_here_append {path : Text} {place : Place} (ancestor : place.isAncestor)
    (n : Nat) (names : List Text) :
    tree.walk path place (List.replicate n Path.here ++ names) = tree.walk path place names := by
  have there : tree.entry? place = some .directory := if_pos ancestor
  induction n with
  | zero => rfl
  | succ n ih =>
      rw [List.replicate_succ, List.cons_append, walk, there]
      exact ih

/-- The path can be looked up in a tree. -/
structure IsUsable (path : Text) : Prop where
  no_null : '\x00' ∉ path
  nonempty : path ≠ []
  short : (Utf8.encode path).length ≤ pathLimit

theorem find_of_usable {path : Text} (usable : IsUsable path) :
    tree.find path = tree.walk path (.start path) (Path.components path) := by
  rw [find, if_neg usable.no_null, if_neg (mt List.isEmpty_iff.mp usable.nonempty),
    if_neg (Nat.not_lt.mpr usable.short)]

theorem usable_of_find {path : Text} (found : tree.find path = .ok entry) : IsUsable path := by
  rw [find] at found
  split at found
  · exact nomatch found
  next no_null =>
    split at found
    · exact nomatch found
    next nonempty =>
      split at found
      · exact nomatch found
      next short => exact ⟨no_null, mt List.isEmpty_iff.mpr nonempty, Nat.not_lt.mp short⟩

theorem IsUsable.normal {path : Text} (usable : IsUsable path) :
    IsUsable (Path.normal path) := by
  rcases Path.normal_sublist path with still | sublist
  · rw [still]
    exact ⟨by decide, List.cons_ne_nil _ _, by decide⟩
  · refine ⟨fun null => usable.no_null (sublist.subset null), Path.normal_ne_nil path, ?_⟩
    exact Nat.le_trans (sublist.flatMap String.utf8EncodeChar).length_le usable.short

/-- **What the path leads to, its normal form leads to.** -/
theorem find_normal {path : Text} (found : tree.find path = .ok entry) :
    tree.find (Path.normal path) = .ok entry := by
  have usable := usable_of_find found
  rw [find_of_usable usable] at found
  obtain ⟨n, names⟩ := Path.components_normal path
  rw [find_of_usable usable.normal, names, Place.start_normal,
    walk_replicate_here_append (Place.isAncestor_start path)]
  exact walk_filter found

theorem find_of_read {path : Text} {bytes : List UInt8} (found : tree.read path = .ok bytes) :
    tree.find path = .ok (.file bytes) := by
  rw [read] at found
  cases there : tree.find path with
  | error e => exact nomatch there ▸ found
  | ok entry =>
      rw [there] at found
      cases entry with
      | directory => exact nomatch found
      | file other =>
          obtain rfl := Except.ok.inj found
          rfl

theorem read_normal {path : Text} {bytes : List UInt8} (found : tree.read path = .ok bytes) :
    tree.read (Path.normal path) = .ok bytes := by
  rw [read, find_normal (find_of_read found)]

example :
    (empty.addFile ['f'] []).read "f/.".toList = .error (.notDirectory "f/.".toList) ∧
      (empty.addFile ['f'] []).read (Path.normal "f/.".toList) = .ok [] := by
  decide

end FileTree

end Pseudocode
