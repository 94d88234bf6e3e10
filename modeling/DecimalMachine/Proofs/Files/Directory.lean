import DecimalMachine.Files.Directory

/-!
# Files that are written

A file can be put at a place at which nothing lies, or a file.  The path that
leads to the place leads to the new file afterwards: the folders on the way are
others than the place, and they stay folders.  Nothing else changes, since these
folders were there before.
-/

namespace DecimalMachine

/-- Where a path leads, a file can be put at a place: nothing lies there, or a
file does. -/
inductive Destination.Takes : Destination → Place → Prop where
  | vacant (place : Place) : Takes (.vacant place) place
  | file (place : Place) (content : List UInt8) : Takes (.node place (.file content)) place

namespace Directory

variable {directory : Directory} {path : Path} {folder place other : Place} {part : String}
  {parts : List String} {content : List UInt8}

/-! ## The place of the new file -/

theorem lookup_put_self : (directory.put place content).nodes.lookup place =
    some (.file content) := by
  have absent : (directory.nodes.filter (·.1 ≠ place)).lookup place = none := by
    rw [List.lookup_eq_none_iff]
    intro entry member
    have kept := (List.mem_filter.mp member).2
    simpa using Ne.symm (by simpa using kept)
  rw [put, List.lookup_append, absent]
  simp

theorem lookup_put_of_ne (different : other ≠ place) :
    (directory.put place content).nodes.lookup other = directory.nodes.lookup other := by
  have kept : (directory.nodes.filter (·.1 ≠ place)).lookup other =
      directory.nodes.lookup other := by
    induction directory.nodes with
    | nil => rfl
    | cons entry rest ih =>
        by_cases same : entry.1 = place
        · rw [List.filter_cons_of_neg (by simpa using same), ih, List.lookup_cons]
          have unlike : (other == entry.1) = false := by
            rw [same]
            exact beq_false_of_ne different
          simp [unlike]
        · rw [List.filter_cons_of_pos (by simpa using same), List.lookup_cons, List.lookup_cons, ih]
  rw [put, List.lookup_append, kept]
  cases directory.nodes.lookup other <;> simp [List.lookup_cons, beq_false_of_ne different]

theorem node?_put_self : (directory.put place content).node? place = some (.file content) := by
  rw [node?, lookup_put_self]

/-- Folders stay folders: what lies in one still does, even where the new file
takes its place. -/
theorem node?_put_of_folder (there : directory.node? other = some .folder)
    (different : other ≠ place) : (directory.put place content).node? other = some .folder := by
  rw [node?] at there
  rw [node?, lookup_put_of_ne different]
  cases found : directory.nodes.lookup other with
  | some node =>
      rw [found] at there
      exact there
  | none =>
      rw [found] at there
      by_cases before : directory.nodes.any (fun entry => other.isPrefixOf entry.1) = true
      · have after : (directory.put place content).nodes.any
            (fun entry => other.isPrefixOf entry.1) = true := by
          rw [List.any_eq_true] at before ⊢
          rcases before with ⟨entry, member, inside⟩
          by_cases same : entry.1 = place
          · exact ⟨(place, .file content), by simp [put], same ▸ inside⟩
          · exact ⟨entry, by simp [put, member, same], inside⟩
        simp [after]
      · rw [if_neg before] at there
        simp [there]

/-! ## The way to the new file -/

theorem enter_eq : directory.enter folder part =
    if Path.nameLimit < part.utf8ByteSize then .tooLong
    else match directory.node? (stepFrom folder part) with
      | some node => .node (stepFrom folder part) node
      | none => .vacant (stepFrom folder part) :=
  rfl

theorem enter_of_takes (takes : (directory.enter folder part).Takes place) :
    place = stepFrom folder part ∧ ¬ Path.nameLimit < part.utf8ByteSize ∧
      directory.node? place ≠ some .folder := by
  rw [enter_eq] at takes
  split at takes
  · cases takes
  next short =>
  cases found : directory.node? (stepFrom folder part) with
  | none =>
      rw [found] at takes
      cases takes
      exact ⟨rfl, short, by simp [found]⟩
  | some node =>
      rw [found] at takes
      cases takes
      exact ⟨rfl, short, by simp [found]⟩

theorem enter_of_folder (enters : directory.enter folder part = .node other .folder) :
    other = stepFrom folder part ∧ ¬ Path.nameLimit < part.utf8ByteSize ∧
      directory.node? other = some .folder := by
  rw [enter_eq] at enters
  split at enters
  · cases enters
  next short =>
  cases found : directory.node? (stepFrom folder part) with
  | none =>
      rw [found] at enters
      cases enters
  | some node =>
      rw [found] at enters
      cases enters
      exact ⟨rfl, short, found⟩

theorem enter_of_node? {node : Node} (short : ¬ Path.nameLimit < part.utf8ByteSize)
    (there : directory.node? (stepFrom folder part) = some node) :
    directory.enter folder part = .node (stepFrom folder part) node := by
  rw [enter_eq, if_neg short, there]

/-- The way to a place that takes a file enters a folder first, if it has more
than one part. -/
theorem enter_of_follow {next : String} {rest : List String}
    (takes : (directory.follow folder (part :: next :: rest)).Takes place) :
    ∃ other, directory.enter folder part = .node other .folder ∧
      (directory.follow other (next :: rest)).Takes place := by
  cases entered : directory.enter folder part with
  | node reached node =>
      rw [follow, entered] at takes
      · cases node with
        | folder => exact ⟨reached, rfl, takes⟩
        | file | sink | full => cases takes
      · simp
  | vacant | nowhere | blocked | tooLong | nullCharacter =>
      rw [follow, entered] at takes
      · cases takes
      · simp

theorem node?_of_follow (takes : (directory.follow folder parts).Takes place) :
    directory.node? place ≠ some .folder := by
  induction parts generalizing folder with
  | nil => cases takes
  | cons part parts ih =>
      cases parts with
      | nil => exact (enter_of_takes takes).2.2
      | cons next rest =>
          rcases enter_of_follow takes with ⟨other, _, takes⟩
          exact ih takes

theorem follow_put (takes : (directory.follow folder parts).Takes place) :
    (directory.put place content).follow folder parts = .node place (.file content) := by
  induction parts generalizing folder with
  | nil => cases takes
  | cons part parts ih =>
      cases parts with
      | nil =>
          rcases enter_of_takes takes with ⟨rfl, short, _⟩
          exact enter_of_node? short node?_put_self
      | cons next rest =>
          have outside := node?_of_follow takes
          rcases enter_of_follow takes with ⟨other, enters, takes⟩
          rcases enter_of_folder enters with ⟨rfl, short, there⟩
          -- A folder is entered first, which the place is not.
          have different : stepFrom folder part ≠ place := by
            rintro rfl
            exact outside there
          rw [follow, enter_of_node? short (node?_put_of_folder there different)]
          · exact ih takes
          · simp

/-- A path that leads to the place of the new file leads to the file. -/
theorem find_put (takes : (directory.find path).Takes place) :
    (directory.put place content).find path = .node place (.file content) := by
  unfold find at takes ⊢
  simp only at takes ⊢
  split at takes
  · cases takes
  next clean =>
  split at takes
  · cases takes
  next short =>
  rw [if_neg clean, if_neg short, follow_put takes]

theorem write_of_takes (takes : (directory.find path).Takes place) :
    directory.write path content = .ok (directory.put place content) := by
  rw [write]
  cases found : directory.find path with
  | vacant | node =>
      cases found ▸ takes
      rfl
  | nowhere | blocked | tooLong | nullCharacter => cases found ▸ takes

theorem read_put (takes : (directory.find path).Takes place) :
    (directory.put place content).read path = .ok content := by
  rw [read, find_put takes]

theorem hasPath_put (takes : (directory.find path).Takes place) :
    (directory.put place content).hasPath path = .ok true := by
  rw [hasPath, find_put takes]

/-- There is something at a path that can be read. -/
theorem hasPath_of_read (reads : directory.read path = .ok content) :
    directory.hasPath path = .ok true := by
  rw [read] at reads
  rw [hasPath]
  cases found : directory.find path with
  | node => rfl
  | vacant | nowhere | blocked | tooLong | nullCharacter =>
      rw [found] at reads
      cases reads

/-! ## What a new file leaves alone -/

/-- The folders on the way to a place are there, whether they are listed or there
for what lies in them. -/
def IsWay (directory : Directory) (place : Place) : Prop :=
  ∀ other, other <+: place → directory.nodes.lookup other = none →
    directory.node? other = some .folder

theorem isWay_start (path : Path) : directory.IsWay (start path) := by
  intro other above unlisted
  have standing : standing? other = some .folder := by
    rw [start] at above
    split at above
    · rcases List.prefix_nil.mp above with rfl
      rfl
    · rcases List.prefix_cons_iff.mp above with rfl | ⟨rest, rfl, none⟩
      · rfl
      · rcases List.prefix_nil.mp none with rfl
        rfl
  rw [node?, unlisted, standing]
  simp

/-- A part of a path leads into the folder, out of it, or nowhere else. -/
theorem stepFrom_cases (folder : Place) (part : String) :
    stepFrom folder part = folder ∨ stepFrom folder part = folder.dropLast ∨
      ∃ last, stepFrom folder part = folder ++ [last] := by
  rw [stepFrom]
  split
  · split
    · exact .inl rfl
    · split
      · exact .inr (.inr ⟨part, rfl⟩)
      · exact .inr (.inl rfl)
  · exact .inr (.inr ⟨part, rfl⟩)

/-- The folders above the place of a part are on the way to the folder that it is
seen from. -/
theorem isPrefix_of_isPrefix_stepFrom (above : other <+: stepFrom folder part)
    (different : other ≠ stepFrom folder part) : other <+: folder := by
  rcases stepFrom_cases folder part with same | out | ⟨last, into⟩
  · exact same ▸ above
  · exact (out ▸ above).trans (List.dropLast_prefix folder)
  · exact (List.prefix_concat_iff.mp (into ▸ above)).resolve_left (into ▸ different)

theorem IsWay.above_stepFrom (way : directory.IsWay folder)
    (above : other <+: stepFrom folder part) (different : other ≠ stepFrom folder part)
    (unlisted : directory.nodes.lookup other = none) : directory.node? other = some .folder :=
  way other (isPrefix_of_isPrefix_stepFrom above different) unlisted

theorem IsWay.stepFrom (way : directory.IsWay folder)
    (there : directory.node? (stepFrom folder part) = some .folder) :
    directory.IsWay (stepFrom folder part) := by
  intro other above unlisted
  by_cases same : other = Directory.stepFrom folder part
  · rw [same, there]
  · exact way.above_stepFrom above same unlisted

/-- The folders above a place that takes a file are there. -/
theorem above_of_follow (way : directory.IsWay folder)
    (takes : (directory.follow folder parts).Takes place) (above : other <+: place)
    (different : other ≠ place) (unlisted : directory.nodes.lookup other = none) :
    directory.node? other = some .folder := by
  induction parts generalizing folder with
  | nil => cases takes
  | cons part parts ih =>
      cases parts with
      | nil =>
          rcases enter_of_takes takes with ⟨rfl, _⟩
          exact way.above_stepFrom above different unlisted
      | cons next rest =>
          rcases enter_of_follow takes with ⟨reached, enters, takes⟩
          rcases enter_of_folder enters with ⟨rfl, _, there⟩
          exact ih (way.stepFrom there) takes

theorem follow_of_find (takes : (directory.find path).Takes place) :
    (directory.follow (start path) path.parts).Takes place := by
  unfold find at takes
  simp only at takes
  split at takes
  · cases takes
  · split at takes
    · cases takes
    · exact takes

/-- A new file leaves everything at other places as it was. -/
theorem node?_put_of_ne (takes : (directory.find path).Takes place) (different : other ≠ place) :
    (directory.put place content).node? other = directory.node? other := by
  cases listed : directory.nodes.lookup other with
  | some node => simp [node?, lookup_put_of_ne different, listed]
  | none =>
      by_cases above : other <+: place
      · have there :=
          above_of_follow (isWay_start path) (follow_of_find takes) above different listed
        rw [there, node?_put_of_folder there different]
      · have inside : (directory.put place content).nodes.any
            (fun entry => other.isPrefixOf entry.1) =
              directory.nodes.any (fun entry => other.isPrefixOf entry.1) := by
          rw [Bool.eq_iff_iff, List.any_eq_true, List.any_eq_true]
          simp only [List.isPrefixOf_iff_prefix, put, List.mem_append, List.mem_filter,
            List.mem_singleton]
          constructor
          · rintro ⟨entry, ⟨member, _⟩ | rfl, below⟩
            · exact ⟨entry, member, below⟩
            · exact absurd below above
          · rintro ⟨entry, member, below⟩
            have elsewhere : entry.1 ≠ place := fun same => above (same ▸ below)
            exact ⟨entry, .inl ⟨member, by simpa using elsewhere⟩, below⟩
        simp only [node?, lookup_put_of_ne different, listed, inside]

theorem put_put (first : List UInt8) :
    (directory.put place first).put place content = directory.put place content := by
  simp [put, List.filter_filter]

/-- A path cannot be written to at all, or opening it for writing changes nothing, or
it leads to a place that takes a file. -/
theorem write_cases (path : Path) :
    (∃ error, ∀ content, directory.write path content = .error error) ∨
    (directory.write path [] = .ok directory) ∨
    ∃ place, (directory.find path).Takes place := by
  cases found : directory.find path with
  | vacant place => exact .inr (.inr ⟨place, .vacant place⟩)
  | node place node =>
      cases node with
      | file content => exact .inr (.inr ⟨place, .file place content⟩)
      | sink | full => exact .inr (.inl (by simp [write, found]))
      | folder => exact .inl ⟨.isFolder path, fun _ => by simp [write, found]⟩
  | nowhere => exact .inl ⟨.missing path, fun _ => by simp [write, found]⟩
  | blocked => exact .inl ⟨.notFolder path, fun _ => by simp [write, found]⟩
  | tooLong => exact .inl ⟨.tooLong path, fun _ => by simp [write, found]⟩
  | nullCharacter => exact .inl ⟨.nullCharacter, fun _ => by simp [write, found]⟩

end Directory

end DecimalMachine
