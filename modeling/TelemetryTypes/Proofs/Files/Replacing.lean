import Mathlib.Data.List.Basic
import TelemetryTypes.FileSystem

/-!
# Replacing a file

From the making of a temporary file to its move or removal, the files are those from before and the
temporary one, which stands where nothing stood. So removing it gives back the files from before,
and paths lead where they led all the while: what they lead through are directories, and those stay.
-/

namespace TelemetryTypes.FileSystem

variable {fs fs' : FileSystem} {place other : Place} {entry : Entry}

/-- What comes of two steps, if anything does, comes of what the first one gave. -/
theorem exists_of_bind_eq_ok {ε α β : Type} {first : Except ε α} {next : α → Except ε β} {b : β}
    (h : first >>= next = .ok b) : ∃ a, first = .ok a ∧ next a = .ok b := by
  cases first with
  | error e => cases h
  | ok a => exact ⟨a, rfl, h⟩

/-! ### Entries -/

theorem ne_of_entry?_eq_none (h : fs.entry? place = none) : ∀ e ∈ fs.entries, e.1 ≠ place := by
  intro e he heq
  unfold entry? at h
  split at h
  · cases h
  · rename_i hlookup
    have hne := List.lookup_eq_none_iff.mp hlookup e he
    simp [heq] at hne

/-- Removing what is not there changes nothing. -/
theorem remove_eq_self (h : fs.entry? place = none) : fs.remove place = fs := by
  have hkept : fs.entries.filter (·.1 != place) = fs.entries :=
    List.filter_eq_self.mpr fun e he => by simpa using ne_of_entry?_eq_none h e he
  rw [remove, hkept]

@[simp] theorem remove_put : (fs.put place entry).remove place = fs.remove place := by
  simp [put, remove]

@[simp] theorem put_put (entry' : Entry) :
    (fs.put place entry).put place entry' = fs.put place entry' := by
  simp [put, remove]

@[simp] theorem entry?_put_self : entry? (fs.put place entry) place = some entry := by
  simp [ entry?, put]

theorem lookup_filter_ne {entries : List (Place × Entry)} (h : other ≠ place) :
    (entries.filter (·.1 != place)).lookup other = entries.lookup other := by
  induction entries with
  | nil => rfl
  | cons first rest ih =>
      obtain ⟨here, entry⟩ := first
      by_cases hhere : here = place
      · subst hhere
        have hne : (other == here) = false := beq_eq_false_iff_ne.mpr h
        simp [List.lookup_cons, hne, ih]
      · simp [List.lookup_cons, hhere, ih]

theorem entry?_put_of_ne (h : other ≠ place) :
    entry? (fs.put place entry) other = fs.entry? other := by
  have hne : (other == place) = false := beq_eq_false_iff_ne.mpr h
  simp [ entry?, put, remove, List.lookup_cons, hne, lookup_filter_ne h]

/-! ### Directories and paths -/

/-- The same directories, whatever other files there are. -/
def SameDirectories (fs fs' : FileSystem) : Prop :=
  fs.workingDirectory = fs'.workingDirectory
    ∧ ∀ place writable, fs.entry? place = some (.directory writable)
        ↔ fs'.entry? place = some (.directory writable)

theorem SameDirectories.symm (h : SameDirectories fs fs') : SameDirectories fs' fs :=
  ⟨h.1.symm, fun place writable => (h.2 place writable).symm⟩

/-- A file that is put where no directory is leaves the directories as they are. -/
theorem sameDirectories_put {content : ByteArray} {readable : Bool}
    (h : ∀ writable, fs.entry? place ≠ some (.directory writable)) :
    SameDirectories fs (fs.put place (.file content readable)) := by
  refine ⟨rfl, fun other writable => ?_⟩
  by_cases hother : other = place
  · subst hother
    simp [h writable]
  · rw [entry?_put_of_ne hother]

namespace SameDirectories

theorem step_eq_ok (h : SameDirectories fs fs') {name : String} {target : Place}
    (hstep : fs.step place name = .ok target) : fs'.step place name = .ok target := by
  unfold step at hstep
  split at hstep
  · cases hstep
  · cases hstep
  · rename_i writable hentry
    rw [step, (h.2 place writable).mp hentry]
    exact hstep

theorem foldlM_step_eq_ok (h : SameDirectories fs fs') {names : List String} {start : Place}
    (hsteps : names.foldlM fs.step start = .ok place) :
    names.foldlM fs'.step start = .ok place := by
  induction names generalizing start with
  | nil => exact hsteps
  | cons name rest ih =>
      rw [List.foldlM_cons] at hsteps ⊢
      obtain ⟨next, hstep, hrest⟩ := exists_of_bind_eq_ok hsteps
      rw [h.step_eq_ok hstep]
      exact ih hrest

theorem walk_eq_ok (h : SameDirectories fs fs') {path : String} {names : List String}
    (hwalk : fs.walk path names = .ok place) : fs'.walk path names = .ok place := by
  unfold walk at hwalk ⊢
  split at hwalk
  · cases hwalk
  · rename_i hlength
    rw [if_neg hlength, ← h.1]
    exact h.foldlM_step_eq_ok hwalk

end SameDirectories

/-! ### Where a path leads -/

/-- A file is moved along the path to its directory and one step on, where no directory may be. -/
theorem destination_eq_ok_iff {path : String} :
    fs.destination path = .ok place ↔
      ∃ directory name, fs.walk path (steps path).dropLast = .ok directory
        ∧ (steps path).getLast? = some name ∧ fs.step directory name = .ok place
        ∧ name ≠ "." ∧ name ≠ ".." ∧ asksForDirectory path = false
        ∧ ∀ writable, fs.entry? place ≠ some (.directory writable) := by
  constructor
  · intro h
    obtain ⟨directory, hdirectory, h⟩ := exists_of_bind_eq_ok h
    split at h
    · cases h
    · rename_i name hname
      obtain ⟨target, htarget, h⟩ := exists_of_bind_eq_ok h
      split at h
      · cases h
      · rename_i hdots
        split at h
        · cases h
        · rename_i hfile
          split at h
          · cases h
          · rename_i hentry
            obtain rfl : target = place := Except.ok.inj h
            simp only [Bool.or_eq_true, decide_eq_true_eq, not_or] at hdots
            exact ⟨directory, name, hdirectory, hname, htarget, hdots.1, hdots.2,
              by simpa using hfile, hentry⟩
  · rintro ⟨directory, name, hdirectory, hname, htarget, hdot, hdots, hfile, hentry⟩
    rw [destination, hdirectory]
    simp only [hname, bind, Except.bind, htarget, hdot, hdots, hfile, decide_false, Bool.or_self,
      Bool.false_eq_true, if_false]

theorem SameDirectories.destination_eq_ok (h : SameDirectories fs fs') {path : String}
    (hdestination : fs.destination path = .ok place) : fs'.destination path = .ok place := by
  obtain ⟨directory, name, hdirectory, hname, htarget, hdot, hdots, hfile, hentry⟩ :=
    destination_eq_ok_iff.mp hdestination
  exact destination_eq_ok_iff.mpr ⟨directory, name, h.walk_eq_ok hdirectory, hname,
    h.step_eq_ok htarget, hdot, hdots, hfile, fun writable hdirectory =>
      hentry writable ((h.2 place writable).mpr hdirectory)⟩

theorem walk_append {path name : String} {names : List String} {directory : Place}
    (hwalk : fs.walk path names = .ok directory) :
    fs.walk path (names ++ [name]) = fs.step directory name := by
  unfold walk at hwalk ⊢
  split at hwalk
  · cases hwalk
  · rename_i hlength
    rw [if_neg hlength, List.foldlM_append, hwalk]
    exact bind_pure (fs.step directory name)

/-- A file is found where it was put, by the path that led there. -/
theorem read_put {path text : String} (h : fs.destination path = .ok place) :
    (fs.put place (.file text.toUTF8 true)).read path = .ok text := by
  have hsame : SameDirectories fs (fs.put place (.file text.toUTF8 true)) := by
    obtain ⟨-, -, -, -, -, -, -, -, hentry⟩ := destination_eq_ok_iff.mp h
    exact sameDirectories_put hentry
  obtain ⟨directory, name, hdirectory, hname, htarget, -, -, hfile, -⟩ :=
    destination_eq_ok_iff.mp (hsame.destination_eq_ok h)
  have hwalk : (fs.put place (.file text.toUTF8 true)).walk path (steps path) = .ok place := by
    rw [← List.dropLast_append_getLast? name hname, walk_append hdirectory, htarget]
  have hresolve : (fs.put place (.file text.toUTF8 true)).resolve path
      = .ok (.file text.toUTF8 true) := by
    simp only [resolve, hfile, Bool.false_eq_true, if_false, List.append_nil, hwalk, bind,
      Except.bind, entry?_put_self]
  have htext : String.fromUTF8? text.toUTF8 = some text := dif_pos text.isValidUTF8
  simp only [read, hresolve, bind, Except.bind, Bool.not_true, Bool.false_eq_true, if_false, htext]

/-! ### Temporary files -/

theorem entry?_of_freePlace? {directory : Place} {n : Nat}
    (h : fs.freePlace? directory n = some place) : fs.entry? place = none := by
  induction n with
  | zero => cases h
  | succ n ih =>
      unfold freePlace? at h
      split at h
      · rename_i hfree
        obtain rfl := Option.some.inj h
        exact hfree
      · exact ih h

/-- A free place is found if one of the names that are tried is free. -/
theorem exists_freePlace?_iff {directory : Place} {n : Nat} :
    (∃ place, fs.freePlace? directory n = some place)
      ↔ ∃ m < n, fs.entry? (directory ++ [madeUpName m]) = none := by
  induction n with
  | zero => simp [freePlace?]
  | succ n ih =>
      rw [freePlace?]
      cases hlast : fs.entry? (directory ++ [madeUpName n]) with
      | none => exact ⟨fun _ => ⟨n, Nat.lt_succ_self n, hlast⟩, fun _ => ⟨_, rfl⟩⟩
      | some entry =>
          refine ih.trans (exists_congr fun m => and_congr_left fun hfree => ?_)
          have hne : m ≠ n := fun heq => by simp [heq, hlast] at hfree
          omega

theorem checkDirectory_eq_ok_iff {path : String} :
    fs.checkDirectory path = .ok ()
      ↔ (temporaryPath ("/" ++ "/".intercalate fs.workingDirectory) path).utf8ByteSize
            ≤ maxPathLength
        ∧ fs.resolve path = .ok (.directory true) := by
  simp only [checkDirectory, bind, Except.bind]
  split_ifs with hlong
  · exact ⟨fun h => (nomatch h), fun h => absurd h.1 (Nat.not_le.mpr hlong)⟩
  · rw [and_iff_right (Nat.not_lt.mp hlong)]
    cases fs.resolve path with
    | error e => simp
    | ok entry =>
        cases entry with
        | file content readable => simp
        | directory writable => cases writable <;> simp

theorem temporaryPlace_eq_ok_iff {path : String} :
    fs.temporaryPlace path = .ok place
      ↔ fs.checkDirectory path = .ok () ∧ ∃ directory, fs.walk path (steps path) = .ok directory
        ∧ fs.freePlace? directory attempts = some place := by
  constructor
  · intro h
    obtain ⟨_, hcheck, h⟩ := exists_of_bind_eq_ok h
    obtain ⟨directory, hwalk, h⟩ := exists_of_bind_eq_ok h
    split at h
    · cases h
    · rename_i free hfree
      obtain rfl := Except.ok.inj h
      exact ⟨hcheck, directory, hwalk, hfree⟩
  · rintro ⟨hcheck, directory, hwalk, hfree⟩
    simp only [temporaryPlace, hcheck, hwalk, bind, Except.bind, hfree]

/-- A temporary file is made where nothing is. -/
theorem entry?_of_temporaryPlace {path : String} (h : fs.temporaryPlace path = .ok place) :
    fs.entry? place = none := by
  obtain ⟨-, directory, -, hfree⟩ := temporaryPlace_eq_ok_iff.mp h
  exact entry?_of_freePlace? hfree

/-- A temporary file that was written in part or as a whole is removed without a trace. -/
theorem remove_write (h : fs.entry? place = none) (text : String) :
    ((fs.put place entry).write place text).2.remove place = fs := by
  simp only [write]
  split <;> rw [remove_put, remove_put, remove_eq_self h]

/-- A temporary file can be written if the text fits in what the files from before leave. -/
theorem write_put_eq_ok_iff (h : fs.entry? place = none) {text : String} :
    ((fs.put place entry).write place text).1 = .ok ()
      ↔ ∀ total ∈ fs.capacity, text.utf8ByteSize ≤ total - fs.used := by
  have hroom : (fs.put place entry).roomFor? place = fs.capacity.map (· - fs.used) := by
    rw [roomFor?, remove_put, remove_eq_self h]
    rfl
  have hsize : text.toUTF8.size = text.utf8ByteSize := rfl
  simp only [write, hroom, hsize]
  cases fs.capacity with
  | none => simp
  | some total =>
      by_cases hfits : text.utf8ByteSize ≤ total - fs.used
      · simp [Option.filter, Nat.not_lt.mpr hfits, hfits]
      · simp [Option.filter, hfits, Nat.lt_of_not_le hfits]

/-- Once it is written, the temporary file is all that there is beside the files from before. -/
theorem write_put {text : String} (h : ((fs.put place entry).write place text).1 = .ok ()) :
    (fs.put place entry).write place text = (.ok (), fs.put place (.file text.toUTF8 true)) := by
  simp only [write] at h ⊢
  split at h
  · cases h
  · rw [put_put]

/-- Moving the temporary file puts what it holds where the path leads from the files from before; if
it leads nowhere, the file stays where it is. -/
theorem move_put_cases (h : fs.entry? place = none) (content : ByteArray) (path : String) :
    ((∀ target, fs.destination path ≠ .ok target)
        ∧ ∃ e, (fs.put place (.file content true)).move place path
          = (.error e, fs.put place (.file content true)))
      ∨ ∃ target, fs.destination path = .ok target
        ∧ (fs.put place (.file content true)).move place path
          = (.ok (), fs.put target (.file content true)) := by
  have hsame : SameDirectories fs (fs.put place (.file content true)) :=
    sameDirectories_put fun writable => by simp [h]
  cases htarget : (fs.put place (.file content true)).destination path with
  | error e =>
      refine .inl ⟨fun target hdestination => ?_, e, by rw [move, htarget, entry?_put_self]⟩
      cases (hsame.destination_eq_ok hdestination).symm.trans htarget
  | ok target =>
      refine .inr ⟨target, hsame.symm.destination_eq_ok htarget, ?_⟩
      rw [move, htarget, entry?_put_self, remove_put, remove_eq_self h]

/-! ### Replacing -/

/-- When the file that a path leads to can be replaced by a text. -/
structure Replaceable (fs : FileSystem) (path text : String) : Prop where
  /-- The directory of the path is found, and files can be made in it. -/
  writable : fs.resolve (Text.directoryOf path) = .ok (.directory true)
  /-- The path of a temporary file in it is not too long. -/
  short : (temporaryPath ("/" ++ "/".intercalate fs.workingDirectory)
    (Text.directoryOf path)).utf8ByteSize ≤ maxPathLength
  /-- A name for a temporary file is free in it. -/
  free : ∃ directory, fs.walk (Text.directoryOf path) (steps (Text.directoryOf path)) = .ok directory
    ∧ ∃ n < attempts, fs.entry? (directory ++ [madeUpName n]) = none
  /-- The text fits in what the files leave. -/
  room : ∀ total ∈ fs.capacity, text.utf8ByteSize ≤ total - fs.used
  /-- The path leads to a place for a file. -/
  leads : ∃ place, fs.destination path = .ok place

theorem replaceable_iff {path text : String} :
    fs.Replaceable path text
      ↔ (∃ temporary, fs.temporaryPlace (Text.directoryOf path) = .ok temporary)
        ∧ (∀ total ∈ fs.capacity, text.utf8ByteSize ≤ total - fs.used)
        ∧ ∃ place, fs.destination path = .ok place := by
  constructor
  · rintro ⟨hwritable, hshort, ⟨directory, hwalk, hname⟩, hroom, hplace⟩
    obtain ⟨temporary, hfree⟩ := exists_freePlace?_iff.mpr hname
    have hcheck := checkDirectory_eq_ok_iff.mpr ⟨hshort, hwritable⟩
    exact ⟨⟨temporary, temporaryPlace_eq_ok_iff.mpr ⟨hcheck, directory, hwalk, hfree⟩⟩, hroom,
      hplace⟩
  · rintro ⟨⟨temporary, htemporary⟩, hroom, hplace⟩
    obtain ⟨hcheck, directory, hwalk, hfree⟩ := temporaryPlace_eq_ok_iff.mp htemporary
    obtain ⟨hshort, hwritable⟩ := checkDirectory_eq_ok_iff.mp hcheck
    have hname := exists_freePlace?_iff.mp ⟨temporary, hfree⟩
    exact ⟨hwritable, hshort, ⟨directory, hwalk, hname⟩, hroom, hplace⟩

section Runs

variable {α β : Type}

theorem run_bind {x : StateM FileSystem α} {f : α → StateM FileSystem β} {a : α}
    (h : x.run fs = (a, fs')) : (x >>= f).run fs = (f a).run fs' := by
  rw [StateT.run_bind, h]
  rfl

theorem run_create (fs : FileSystem) (directory : String) :
    (FileStore.create directory : StateM FileSystem _).run fs = fs.create directory := rfl

theorem run_write (fs : FileSystem) (place : Place) (text : String) :
    (FileStore.write place text : StateM FileSystem _).run fs = fs.write place text := rfl

theorem run_move (fs : FileSystem) (place : Place) (path : String) :
    (FileStore.move place path : StateM FileSystem _).run fs = fs.move place path := rfl

theorem run_remove (fs : FileSystem) (place : Place) :
    (FileStore.remove place : StateM FileSystem _).run fs = ((), fs.remove place) := rfl

end Runs

/-- A file that can be replaced is replaced as a whole, and no other file with it; if it cannot,
nothing is changed at all. -/
theorem replace_cases (fs : FileSystem) (path text : String) :
    (¬fs.Replaceable path text
        ∧ ∃ e, (FileStore.replace path text : StateM FileSystem _).run fs = (.error e, fs))
      ∨ fs.Replaceable path text ∧ ∃ place, fs.destination path = .ok place
        ∧ (FileStore.replace path text : StateM FileSystem _).run fs
          = (.ok (), fs.put place (.file text.toUTF8 true)) := by
  rw [replaceable_iff, FileStore.replace]
  cases htemporary : fs.temporaryPlace (Text.directoryOf path) with
  | error e =>
      have hcreate := run_create fs (Text.directoryOf path)
      rw [create, htemporary] at hcreate
      rw [run_bind hcreate]
      exact .inl ⟨fun h => (nomatch h.1), .noTemporary e, rfl⟩
  | ok temporary =>
      have hfree := entry?_of_temporaryPlace htemporary
      have hcreate := run_create fs (Text.directoryOf path)
      rw [create, htemporary] at hcreate
      rw [run_bind hcreate]
      have hwrite := run_write (fs.put temporary (.file ⟨#[]⟩ true)) temporary text
      have hroom : ((fs.put temporary (.file ⟨#[]⟩ true)).write temporary text).1 = .ok ()
          ↔ ∀ total ∈ fs.capacity, text.utf8ByteSize ≤ total - fs.used :=
        write_put_eq_ok_iff hfree
      cases hwritten : ((fs.put temporary (.file ⟨#[]⟩ true)).write temporary text).1 with
      | error e =>
          have hremove := run_remove
            ((fs.put temporary (.file ⟨#[]⟩ true)).write temporary text).2 temporary
          rw [remove_write hfree] at hremove
          rw [run_bind (hwrite.trans (Prod.ext hwritten rfl)), run_bind hremove]
          refine .inl ⟨fun h => ?_, .notWritten e, rfl⟩
          cases hwritten.symm.trans (hroom.mpr h.2.1)
      | ok written =>
          rw [write_put hwritten] at hwrite
          rw [run_bind hwrite]
          have hmove := run_move (fs.put temporary (.file text.toUTF8 true)) temporary path
          obtain ⟨hnowhere, e, hmoved⟩ | ⟨place, hplace, hmoved⟩ :=
            move_put_cases hfree text.toUTF8 path
          · have hremove := run_remove (fs.put temporary (.file text.toUTF8 true)) temporary
            rw [remove_put, remove_eq_self hfree] at hremove
            rw [run_bind (hmove.trans hmoved), run_bind hremove]
            exact .inl ⟨fun h => h.2.2.elim hnowhere, .notMoved e, rfl⟩
          · rw [run_bind (hmove.trans hmoved)]
            exact .inr ⟨⟨⟨temporary, rfl⟩, hroom.mp hwritten, place, hplace⟩, place, hplace, rfl⟩

end TelemetryTypes.FileSystem
