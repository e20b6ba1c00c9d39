import ScriptLex.File.Tree

/-!
# Writing to a tree of files

A write that is not refused changes the entry at one place and no other. The path leads to that
place afterwards, also if it did not before: nothing on the way to it was changed, since the way
goes through directories and what is overwritten is none. So the path is read as it was written.
-/

namespace ScriptLex.FileTree

variable {tree after : FileTree} {place other : List Text} {entry : Entry} {bytes : List UInt8}
  {p : Path}

/-! ## The disk -/

theorem disk_isFile_bind {α : Type} (p : Path) (next : Except FileError Bool → StateM FileTree α)
    (tree : FileTree) : (disk.isFile p >>= next).run tree = (next (tree.isFile p)).run tree := rfl

theorem disk_read_bind {α : Type} (p : Path)
    (next : Except FileError (List UInt8) → StateM FileTree α) (tree : FileTree) :
    (disk.read p >>= next).run tree = (next (tree.read p)).run tree := rfl

theorem disk_write_bind {α : Type} (p : Path) (bytes : List UInt8)
    (next : Except FileError Unit → StateM FileTree α) (tree : FileTree) :
    (disk.write p bytes >>= next).run tree =
      match tree.write p bytes with
      | .ok after => (next (.ok ())).run after
      | .error error => (next (.error error)).run tree := by
  show ((match tree.write p bytes with
    | .ok after => do set after; return .ok ()
    | .error error => return .error error : StateM FileTree _) >>= next).run tree = _
  cases tree.write p bytes with
  | ok after => rfl
  | error error => rfl

/-! ## One place -/

theorem lookup_filter_ne (entries : List (List Text × Entry)) (h : other ≠ place) :
    (entries.filter (·.1 ≠ place)).lookup other = entries.lookup other := by
  induction entries with
  | nil => rfl
  | cons head entries ih =>
      obtain ⟨key, value⟩ := head
      by_cases hkey : key = place
      · subst hkey
        rw [List.filter_cons_of_neg (by simp), List.lookup_cons, beq_false_of_ne h, ih]
      · rw [List.filter_cons_of_pos (by simpa using hkey), List.lookup_cons, List.lookup_cons, ih]

theorem lookup_filter_self (entries : List (List Text × Entry)) (place : List Text) :
    (entries.filter (·.1 ≠ place)).lookup place = none := by
  rw [List.lookup_eq_none_iff]
  intro head hmem
  have hne : head.1 ≠ place := by simpa using (List.mem_filter.mp hmem).2
  simpa using hne.symm

theorem entry?_put_self (tree : FileTree) (h : place ≠ []) (entry : Entry) :
    FileTree.entry? (tree.put place entry) place = some entry := by
  rw [FileTree.entry?, if_neg h, put, List.lookup_append, lookup_filter_self]
  simp

theorem entry?_put_of_ne (tree : FileTree) (h : other ≠ place) (entry : Entry) :
    FileTree.entry? (tree.put place entry) other = tree.entry? other := by
  by_cases hother : other = []
  · rw [FileTree.entry?, FileTree.entry?, if_pos hother, if_pos hother]
  · have hnone : [(place, entry)].lookup other = none := by simp [h]
    rw [FileTree.entry?, FileTree.entry?, if_neg hother, if_neg hother, put, List.lookup_append,
      lookup_filter_ne _ h, hnone, Option.or_none]

/-! ## The way to a place -/

theorem walk_append (tree : FileTree) (start names more : List Text) :
    tree.walk start (names ++ more) =
      match tree.walk start names with
      | .error fault => .error fault
      | .ok next => tree.walk next more := by
  induction names generalizing start with
  | nil => rfl
  | cons name names ih =>
      rw [List.cons_append, walk, walk]
      cases tree.step? start name with
      | error fault => rfl
      | ok next =>
          cases next with
          | none => rfl
          | some next => exact ih next

/-- A step that is not refused starts at a directory. -/
theorem entry?_of_step? {start : List Text} {name : Text} {next : Option (List Text)}
    (h : tree.step? start name = .ok next) : tree.entry? start = some .directory := by
  unfold step? at h
  split at h
  next => cases h
  next => cases h
  next hdirectory => exact hdirectory

/-- Directories stay where a file is put in the place of something else. -/
theorem entry?_put {start : List Text} (h : tree.entry? start = some .directory)
    (hplace : tree.entry? place ≠ some .directory) (entry : Entry) :
    FileTree.entry? (tree.put place entry) start = some .directory := by
  have hne : start ≠ place := by
    rintro rfl
    exact hplace h
  exact (entry?_put_of_ne tree hne entry).trans h

/-- A step that led somewhere still leads there. -/
theorem step?_put {start next : List Text} {name : Text}
    (h : tree.step? start name = .ok (some next)) (hplace : tree.entry? place ≠ some .directory)
    (hne : place ≠ []) (entry : Entry) :
    (tree.put place entry).step? start name = .ok (some next) := by
  have hdirectory := entry?_of_step? h
  have hstays := entry?_put hdirectory hplace entry
  unfold step? at h ⊢
  rw [hdirectory] at h
  rw [hstays]
  dsimp only at h ⊢
  by_cases hup : name = (".." : Text)
  · rw [if_pos hup] at h ⊢
    exact h
  · rw [if_neg hup] at h ⊢
    by_cases hlong : Path.nameLimit < (Utf8.encode name).length
    · rw [if_pos hlong] at h
      cases h
    · rw [if_neg hlong] at h ⊢
      obtain ⟨found, hfound, rfl⟩ := Option.map_eq_some_iff.mp (Except.ok.inj h)
      by_cases hstart : start ++ [name] = place
      · rw [hstart, entry?_put_self tree hne]
        rfl
      · rw [entry?_put_of_ne tree hstart, hfound]
        rfl

/-- and so does a walk. -/
theorem walk_put {start last names : List Text} (h : tree.walk start names = .ok last)
    (hplace : tree.entry? place ≠ some .directory) (hne : place ≠ []) (entry : Entry) :
    (tree.put place entry).walk start names = .ok last := by
  induction names generalizing start with
  | nil => exact h
  | cons name names ih =>
      rw [walk] at h ⊢
      split at h
      next => cases h
      next => cases h
      next next hstep =>
        rw [step?_put hstep hplace hne entry]
        exact ih h

/-- Behind a step that found nothing there is room for a file. -/
theorem step?_put_new {start : List Text} {name : Text} (h : tree.step? start name = .ok none)
    (entry : Entry) :
    tree.entry? (start ++ [name]) = none ∧
      (tree.put (start ++ [name]) entry).step? start name = .ok (some (start ++ [name])) := by
  have hdirectory := entry?_of_step? h
  unfold step? at h
  rw [hdirectory] at h
  dsimp only at h
  by_cases hup : name = (".." : Text)
  · rw [if_pos hup] at h
    cases h
  · rw [if_neg hup] at h
    by_cases hlong : Path.nameLimit < (Utf8.encode name).length
    · rw [if_pos hlong] at h
      cases h
    · rw [if_neg hlong] at h
      have hnone : tree.entry? (start ++ [name]) = none :=
        Option.map_eq_none_iff.mp (Except.ok.inj h)
      have hstays := entry?_put hdirectory (by rw [hnone]; simp) entry
      refine ⟨hnone, ?_⟩
      unfold step?
      rw [hstays]
      dsimp only
      rw [if_neg hup, if_neg hlong, entry?_put_self tree (by simp)]
      rfl

/-! ## Writing -/

/-- What a write does that is not refused: the path leads to a place, a file with these bytes is
there, every other place is as it was, and relative paths start where they did. -/
inductive Wrote (tree : FileTree) (p : Path) (bytes : List UInt8) (after : FileTree) : Prop
  | intro {place : List Text} (hleads : after.walk (after.startOf p) p.names = .ok place)
      (hread : after.read p = .ok bytes) (hentry : after.entry? place = some (.file bytes))
      (hothers : ∀ other, other ≠ place → after.entry? other = tree.entry? other)
      (hstart : after.workingDirectory = tree.workingDirectory)

theorem wrote_put {start : List Text} {name : Text} (hcheck : p.check = .ok ())
    (hname : p.names.getLast? = some name)
    (hwalk : tree.walk (tree.startOf p) p.names.dropLast = .ok start) (hne : place ≠ [])
    (hplace : tree.entry? place ≠ some .directory)
    (hstep : (tree.put place (.file bytes)).step? start name = .ok (some place)) :
    Wrote tree p bytes (tree.put place (.file bytes)) := by
  have hleads : (tree.put place (.file bytes)).walk
      ((tree.put place (.file bytes)).startOf p) p.names = .ok place := by
    obtain ⟨names, hnames⟩ := List.getLast?_eq_some_iff.mp hname
    rw [hnames, List.dropLast_concat] at hwalk
    have hway := walk_put hwalk hplace hne (.file bytes)
    show (tree.put place (.file bytes)).walk (tree.startOf p) p.names = .ok place
    rw [hnames, walk_append, hway]
    simp only [walk, hstep]
  have hentry := entry?_put_self tree hne (.file bytes)
  refine .intro hleads ?_ hentry (fun other hother => entry?_put_of_ne tree hother _) rfl
  have hfind : (tree.put place (.file bytes)).find p = .ok (.file bytes) := by
    rw [find, hcheck, hleads]
    simp only [bind, Except.bind, hentry]
  rw [read, hfind]

/-- **What a write does.** -/
theorem wrote_of_write (h : tree.write p bytes = .ok after) : Wrote tree p bytes after := by
  unfold write at h
  cases hcheck : p.check with
  | error error =>
      rw [hcheck] at h
      cases h
  | ok =>
      rw [hcheck] at h
      dsimp only [bind, Except.bind] at h
      split at h
      next => cases h
      next name hname =>
        split at h
        next => cases h
        next start hwalk =>
          split at h
          next => cases h
          next hstep =>
            obtain rfl := Except.ok.inj h
            obtain ⟨hnone, hnew⟩ := step?_put_new hstep (.file bytes)
            exact wrote_put hcheck hname hwalk (by simp) (by simp [hnone]) hnew
          next target hstep =>
            split at h
            next old hold =>
              obtain rfl := Except.ok.inj h
              have hne : target ≠ [] := by
                rintro rfl
                cases hold
              have hplace : tree.entry? target ≠ some .directory := by simp [hold]
              exact wrote_put hcheck hname hwalk hne hplace (step?_put hstep hplace hne _)
            next => cases h

end ScriptLex.FileTree
