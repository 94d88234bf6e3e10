import DecimalMachine.Proofs.InPlace
import DecimalMachine.Proofs.Program.Declarations

/-!
# Shared tables

A table hands out its entries, and who holds one of a symbol table assigns an address
to it at any later time.  So the calls of a table are also stated in place: the
entries stand in a store, and the table lists names with the places of their entries,
which are all that it hands out.  Such a table answers as the table of its entries
does, and a call that fails leaves both the store and the list as they were.
-/

namespace DecimalMachine.Table

/-- A table whose entries are shared with those to whom it handed them out. -/
structure Shared (α : Type) where
  /-- The entries in the order in which they were made. -/
  entries : List (Entry α)
  /-- The names in the order of the table, with the places of their entries. -/
  places : List (String × Nat)

namespace Shared

variable {α : Type}

/-- The table without names, and no entries. -/
def empty : Shared α := ⟨[], []⟩

/-- The table as it is iterated over. -/
def table (shared : Shared α) : Table α :=
  ⟨shared.places.filterMap fun named => shared.entries[named.2]?⟩

/-- The entry of a name, and its place. -/
def find? (shared : Shared α) (name : String) : Option (Nat × Entry α) :=
  (shared.places.find? (·.1 == name)).bind fun named =>
    shared.entries[named.2]?.map (named.2, ·)

/-- Make an entry, which is not yet in the table. -/
def make (shared : Shared α) (entry : Entry α) : Shared α :=
  { shared with entries := shared.entries ++ [entry] }

/-- Put the entry of a place into the table. -/
def insert (shared : Shared α) (name : String) (place : Nat) : Shared α :=
  { shared with places := shared.places ++ [(name, place)] }

/-- Change the value of an entry. -/
def change (shared : Shared α) (place : Nat) (f : α → α) : Shared α :=
  { shared with
    entries := shared.entries.modify place fun entry => { entry with value := f entry.value } }

end Shared

namespace Kind

variable {δ κ α : Type} (kind : Kind δ κ α)

/-- Answer a call in place, with the place of the entry that is declared or found. -/
def perform : Call δ κ → EStateM CompileError (Shared α) (Option Nat)
  | .declare name what location sourceLine => do
      let shared ← get
      match shared.find? name with
      | some (_, first) =>
          throw ⟨.duplicate kind.symbol name first.location, some location, sourceLine⟩
      | none =>
          modify (·.make ⟨name, location, kind.make what⟩)
          modify (·.insert name shared.entries.length)
          pure (some shared.entries.length)
  | .lookup name => do
      let shared ← get
      pure ((shared.find? name).map (·.1))
  | .resolve name location sourceLine => do
      let shared ← get
      match shared.find? name with
      | some (place, _) => pure (some place)
      | none =>
          throw ⟨.undefined kind.symbol name
            (Text.closeMatches 3 name (shared.places.map (·.1))), location, sourceLine⟩
  | .assign place what => do
      modify (·.change place (kind.change what))
      pure none

/-- What a call leaves, whether it fails or not. -/
def left (shared : Shared α) (call : Call δ κ) : Shared α :=
  match (kind.perform call).run shared with
  | .ok _ next => next
  | .error _ next => next

/-- The shared table after calls, first one first. -/
def shared (calls : List (Call δ κ)) : Shared α :=
  calls.foldl kind.left .empty

theorem shared_concat (calls : List (Call δ κ)) (call : Call δ κ) :
    kind.shared (calls ++ [call]) = kind.left (kind.shared calls) call := by
  rw [shared, List.foldl_append]
  rfl

end Kind

/-! ## Places -/

namespace Shared

variable {α : Type} {shared : Shared α} {name : String}

/-- The names are listed with the places of their entries, each name once. -/
structure Sound (shared : Shared α) : Prop where
  places : shared.places = (shared.entries.map (·.name)).zipIdx
  nodup : (shared.entries.map (·.name)).Nodup

theorem sound_empty : Sound (empty : Shared α) :=
  ⟨rfl, List.nodup_nil⟩

/-- The table lists all entries. -/
theorem Sound.table_eq (sound : shared.Sound) : shared.table = ⟨shared.entries⟩ := by
  have here : ∀ numbered ∈ shared.entries.zipIdx,
      shared.entries[numbered.2]? = some numbered.1 :=
    fun numbered member => List.mk_mem_zipIdx_iff_getElem?.mp member
  rw [table, sound.places, List.zipIdx_map, List.filterMap_map]
  simp only [Function.comp_def, Prod.map_snd, id_eq]
  rw [List.filterMap_congr here, List.filterMap_eq_map', List.zipIdx_map_fst]

theorem Sound.names_eq (sound : shared.Sound) : shared.places.map (·.1) = shared.table.names := by
  rw [sound.table_eq, sound.places]
  exact List.zipIdx_map_fst 0 _

/-- What is found under a name is what the table finds. -/
theorem Sound.find?_eq (sound : shared.Sound) (name : String) :
    (shared.find? name).map (·.2) = shared.table.find? name := by
  have listed : shared.table.find? name =
      (shared.entries.zipIdx.find? fun numbered => numbered.1.name == name).map (·.1) := by
    rw [sound.table_eq, Table.find?]
    conv_lhs => rw [← List.zipIdx_map_fst 0 shared.entries, List.find?_map]
    rfl
  rw [find?, sound.places, List.zipIdx_map, List.find?_map, listed]
  simp only [Function.comp_def, Prod.map_fst]
  cases found : shared.entries.zipIdx.find? fun numbered => numbered.1.name == name with
  | none => rfl
  | some numbered =>
      have here := List.mk_mem_zipIdx_iff_getElem?.mp (List.mem_of_find?_eq_some found)
      simp [here]

/-- An entry that is found stands at its place. -/
theorem getElem?_of_find? {place : Nat} {entry : Entry α}
    (found : shared.find? name = some (place, entry)) : shared.entries[place]? = some entry := by
  obtain ⟨named, _, here⟩ := Option.bind_eq_some_iff.mp found
  obtain ⟨other, here, same⟩ := Option.map_eq_some_iff.mp here
  cases same
  exact here

/-! ## Changes -/

/-- A new entry that is put into the table under a new name is added to it. -/
theorem Sound.insert (sound : shared.Sound) (entry : Entry α)
    (new : entry.name ∉ shared.table.names) :
    ((shared.make entry).insert entry.name shared.entries.length).Sound := by
  rw [sound.table_eq] at new
  constructor
  · simp [Shared.insert, make, sound.places, List.zipIdx_append]
  · simpa [Shared.insert, make, List.nodup_append, sound.nodup, names] using new

theorem Sound.table_insert (sound : shared.Sound) (entry : Entry α)
    (new : entry.name ∉ shared.table.names) :
    ((shared.make entry).insert entry.name shared.entries.length).table =
      shared.table.add entry.name entry.location entry.value := by
  rw [(sound.insert entry new).table_eq, sound.table_eq]
  rfl

/-- A changed entry keeps its name. -/
theorem names_change (place : Nat) (f : α → α) :
    (shared.change place f).entries.map (·.name) = shared.entries.map (·.name) := by
  apply List.ext_getElem?
  intro index
  rw [change, List.getElem?_map, List.getElem?_map, List.getElem?_modify]
  cases shared.entries[index]? with
  | none => rfl
  | some entry =>
      simp only [Option.map_eq_map, Option.map_some]
      split <;> rfl

theorem Sound.change (sound : shared.Sound) (place : Nat) (f : α → α) :
    (shared.change place f).Sound := by
  constructor
  · rw [names_change]
    exact sound.places
  · rw [names_change]
    exact sound.nodup

/-- A change at the place of an entry is one of the value of its name. -/
theorem Sound.table_change (sound : shared.Sound) {place : Nat} {entry : Entry α}
    (here : shared.entries[place]? = some entry) (f : α → α) :
    (shared.change place f).table =
      shared.table.mapValues fun name value => if name = entry.name then f value else value := by
  rw [(sound.change place f).table_eq, sound.table_eq, mapValues]
  congr 1
  apply List.ext_getElem?
  intro index
  rw [Shared.change, List.getElem?_map, List.getElem?_modify]
  cases there : shared.entries[index]? with
  | none => rfl
  | some other =>
      -- Without repetitions the name stands at one place only.
      have same : place = index ↔ other.name = entry.name := by
        constructor
        · rintro rfl
          rw [here] at there
          cases there
          rfl
        · intro equal
          have inside : place < (shared.entries.map (·.name)).length := by
            rw [List.length_map]
            exact (List.getElem?_eq_some_iff.mp here).1
          refine (List.getElem?_inj inside sound.nodup).mp ?_
          rw [List.getElem?_map, List.getElem?_map, here, there, Option.map_some, Option.map_some,
            equal]
      simp only [Option.map_eq_map, Option.map_some, same]
      split <;> rfl

theorem change_of_none {place : Nat} (nowhere : shared.entries[place]? = none) (f : α → α) :
    shared.change place f = shared := by
  rw [change, List.modify_eq_self (List.getElem?_eq_none_iff.mp nowhere)]

end Shared

/-! ## One call -/

section Calls

variable {δ κ α : Type} {kind : Kind δ κ α} {shared : Shared α}

/-- What a call does in place, beside the answer of the table: it leaves the table of
the answer and hands out the place of its entry, if there is one, or it fails as the
table does and leaves everything as it was. -/
inductive Refines (shared : Shared α) :
    Except CompileError (Option (Entry α) × Table α) →
    EStateM.Result CompileError (Shared α) (Option Nat) → Prop where
  | ok {place : Option Nat} {entry : Option (Entry α)} {next : Shared α} (sound : next.Sound)
      (there : place.map (next.entries[·]?) = entry.map some) :
      Refines shared (.ok (entry, next.table)) (.ok place next)
  | error (error : CompileError) : Refines shared (.error error) (.error error shared)

theorem refines_declare (sound : shared.Sound) (name : String) (what : δ) (location : Location)
    (sourceLine : Option String) :
    Refines shared (kind.answer shared.table (.declare name what location sourceLine))
      ((kind.perform (.declare name what location sourceLine)).run shared) := by
  have found := sound.find?_eq name
  simp only [EStateM.run, Kind.perform, Kind.answer, kind.declare_eq, declare, bind_apply,
    get_apply]
  cases here : shared.find? name with
  | some placed =>
      rw [here] at found
      rw [← found]
      exact .error _
  | none =>
      rw [here] at found
      have new : name ∉ shared.table.names := find?_eq_none_iff.mp found.symm
      have kept := sound.table_insert ⟨name, location, kind.make what⟩ new
      have listed : (shared.table.add name location (kind.make what)).find? name =
          some ⟨name, location, kind.make what⟩ := by
        rw [find?_add, ← found]
        simp
      have placed : ((shared.make ⟨name, location, kind.make what⟩).insert name
          shared.entries.length).entries[shared.entries.length]? =
            some ⟨name, location, kind.make what⟩ := List.getElem?_concat_length
      rw [← found]
      change Refines shared
        (.ok ((shared.table.add name location (kind.make what)).find? name, _)) _
      rw [listed, ← kept]
      exact .ok (sound.insert ⟨name, location, kind.make what⟩ new) (congrArg some placed)

theorem refines_lookup (sound : shared.Sound) (name : String) :
    Refines shared (kind.answer shared.table (.lookup name))
      ((kind.perform (.lookup name)).run shared) := by
  have found := sound.find?_eq name
  simp only [EStateM.run, Kind.perform, Kind.answer, bind_apply, get_apply, pure_apply, ← found]
  cases here : shared.find? name with
  | some placed => exact .ok sound (congrArg some (Shared.getElem?_of_find? here))
  | none => exact .ok sound rfl

theorem refines_resolve (sound : shared.Sound) (name : String) (location : Option Location)
    (sourceLine : Option String) :
    Refines shared (kind.answer shared.table (.resolve name location sourceLine))
      ((kind.perform (.resolve name location sourceLine)).run shared) := by
  have found := sound.find?_eq name
  simp only [EStateM.run, Kind.perform, Kind.answer, resolve, bind_apply, get_apply]
  cases here : shared.find? name with
  | some placed =>
      rw [here] at found
      rw [← found]
      exact .ok sound (congrArg some (Shared.getElem?_of_find? here))
  | none =>
      rw [here] at found
      rw [← found, ← sound.names_eq]
      exact .error _

theorem refines_assign (sound : shared.Sound) (place : Nat) (what : κ) :
    Refines shared (kind.answer shared.table (.assign place what))
      ((kind.perform (.assign place what)).run shared) := by
  have entries : shared.table.entries = shared.entries := congrArg Table.entries sound.table_eq
  simp only [EStateM.run, Kind.perform, Kind.answer, bind_apply, modify_apply, pure_apply, entries]
  cases here : shared.entries[place]? with
  | some entry =>
      simp only [kind.assign_eq, ← sound.table_change here]
      exact .ok (sound.change place _) rfl
  | none =>
      simp only [Shared.change_of_none here]
      exact .ok sound rfl

/-- A call in place is a call of the table. -/
theorem refines_perform (sound : shared.Sound) (call : Call δ κ) :
    Refines shared (kind.answer shared.table call) ((kind.perform call).run shared) := by
  cases call with
  | declare name what location sourceLine =>
      exact refines_declare sound name what location sourceLine
  | lookup name => exact refines_lookup sound name
  | resolve name location sourceLine => exact refines_resolve sound name location sourceLine
  | assign place what => exact refines_assign sound place what

theorem left_of_sound (sound : shared.Sound) (call : Call δ κ) :
    (kind.left shared call).Sound ∧
      (kind.left shared call).table = kind.next shared.table call := by
  have refines : Refines shared (kind.answer shared.table call)
      ((kind.perform call).run shared) := refines_perform sound call
  rw [Kind.left, Kind.next]
  generalize kind.answer shared.table call = answer at refines
  generalize (kind.perform call).run shared = result at refines
  cases refines with
  | ok next => exact ⟨next, rfl⟩
  | error error => exact ⟨sound, rfl⟩

end Calls

/-! ## All calls -/

section Histories

variable {δ κ α : Type} (kind : Kind δ κ α) (calls : List (Call δ κ))

/-- After all calls the shared table is the table after them. -/
theorem sound_shared :
    (kind.shared calls).Sound ∧ (kind.shared calls).table = kind.after calls := by
  induction calls using List.reverseRecOn with
  | nil => exact ⟨Shared.sound_empty, rfl⟩
  | append_singleton calls call ih =>
      rw [kind.shared_concat, kind.after_concat, ← ih.2]
      exact left_of_sound ih.1 call

theorem records_shared : Records kind calls (kind.shared calls).table := by
  rw [(sound_shared kind calls).2]
  exact records_after kind calls

theorem refines_shared (call : Call δ κ) :
    Refines (kind.shared calls) (kind.answer (kind.shared calls).table call)
      ((kind.perform call).run (kind.shared calls)) :=
  refines_perform (sound_shared kind calls).1 call

end Histories

section Refinement

variable {α : Type} {shared : Shared α}
  {result : EStateM.Result CompileError (Shared α) (Option Nat)}

theorem Refines.of_error {error : CompileError} (refines : Refines shared (.error error) result) :
    result = .error error shared := by
  cases refines
  rfl

theorem Refines.of_ok {entry : Option (Entry α)} {table : Table α}
    (refines : Refines shared (.ok (entry, table)) result) :
    ∃ place next, result = .ok place next ∧ next.table = table ∧
      place.map (next.entries[·]?) = entry.map some := by
  cases refines with
  | ok _ there => exact ⟨_, _, rfl, rfl, there⟩

theorem Refines.eq_of_error {answer : Except CompileError (Option (Entry α) × Table α)}
    (refines : Refines shared answer result) {error : CompileError} {left : Shared α}
    (failed : result = .error error left) : left = shared := by
  cases refines with
  | ok => cases failed
  | error => cases failed; rfl

end Refinement

/-! ## First declarations win -/

/-- What was declared first under a name decides what calls are answered, whatever
was called before. -/
structure FirstWins {δ κ α : Type} (kind : Kind δ κ α) (calls : List (Call δ κ)) : Prop where
  /-- A call in place is one of the table that the calls before it lead to. -/
  refines : ∀ call, Refines (kind.shared calls) (kind.answer (kind.after calls) call)
    ((kind.perform call).run (kind.shared calls))
  /-- The names are listed in the order of their first declarations. -/
  names : (kind.shared calls).table.names = (calls.filterMap Call.declares?).eraseDups
  nodup : (kind.shared calls).table.names.Nodup
  /-- What is found under a name is its first declaration. -/
  found : ∀ name, ((kind.shared calls).table.find? name).map kind.declaration =
    calls.findSome? (Call.declaration? name)
  /-- The first declaration of a name makes a new entry behind all others. -/
  declares : ∀ name what location sourceLine,
    calls.findSome? (Call.declaration? name) = none →
      ∃ place next,
        (kind.perform (.declare name what location sourceLine)).run (kind.shared calls) =
          .ok (some place) next ∧
        next.entries[place]? = some ⟨name, location, kind.make what⟩ ∧
        next.table = (kind.shared calls).table.add name location (kind.make what)
  /-- Every other one fails, and tells where the first one is. -/
  duplicate : ∀ name what location sourceLine first,
    calls.findSome? (Call.declaration? name) = some first →
      (kind.perform (.declare name what location sourceLine)).run (kind.shared calls) =
        .error ⟨.duplicate kind.symbol name first.1, some location, sourceLine⟩
          (kind.shared calls)
  looksUp : ∀ name, ∃ place next,
    (kind.perform (.lookup name)).run (kind.shared calls) = .ok place next ∧
      next.table = (kind.shared calls).table ∧
      place.map (next.entries[·]?) = ((kind.shared calls).table.find? name).map some
  /-- A name that was declared is resolved to the entry of its first declaration. -/
  resolves : ∀ name location sourceLine first,
    calls.findSome? (Call.declaration? name) = some first →
      ∃ place next entry,
        (kind.perform (.resolve name location sourceLine)).run (kind.shared calls) =
          .ok (some place) next ∧
        next.table = (kind.shared calls).table ∧ next.entries[place]? = some entry ∧
        entry.name = name ∧ kind.declaration entry = first
  undefined : ∀ name location sourceLine,
    calls.findSome? (Call.declaration? name) = none →
      (kind.perform (.resolve name location sourceLine)).run (kind.shared calls) =
        .error ⟨.undefined kind.symbol name
          (Text.closeMatches 3 name (kind.shared calls).table.names), location, sourceLine⟩
          (kind.shared calls)
  /-- What is assigned to an entry is assigned under its name. -/
  assigns : ∀ (place : Nat) what entry, (kind.shared calls).entries[place]? = some entry →
    ∃ next, (kind.perform (.assign place what)).run (kind.shared calls) = .ok none next ∧
      next.table = kind.assign (kind.shared calls).table entry.name what
  /-- What fails leaves everything as it was. -/
  fails : ∀ call error left,
    (kind.perform call).run (kind.shared calls) = .error error left → left = kind.shared calls
  /-- An entry that was handed out stays the one of its name. -/
  stays : ∀ (more : List (Call δ κ)) (place : Nat) entry,
    (kind.shared calls).entries[place]? = some entry →
      ∃ later, (kind.shared (calls ++ more)).entries[place]? = some later ∧
      later.name = entry.name ∧ kind.declaration later = kind.declaration entry ∧
      (kind.shared (calls ++ more)).table.find? entry.name = some later

section Wins

variable {δ κ α : Type} (kind : Kind δ κ α) (calls : List (Call δ κ))

/-- The entries are those of the table. -/
theorem entries_shared : (kind.shared calls).table.entries = (kind.shared calls).entries :=
  congrArg entries (sound_shared kind calls).1.table_eq

theorem find?_of_getElem? {place : Nat} {entry : Entry α}
    (here : (kind.shared calls).entries[place]? = some entry) :
    (kind.shared calls).table.find? entry.name = some entry := by
  rw [← entries_shared] at here
  exact (find?_eq_some_iff (records_shared kind calls).nodup).mpr ⟨List.mem_of_getElem? here, rfl⟩

/-- The names that were listed stay where they are. -/
theorem getElem?_names_append {place : Nat} {name : String}
    (here : (kind.shared calls).table.names[place]? = some name) (more : List (Call δ κ)) :
    (kind.shared (calls ++ more)).table.names[place]? = some name := by
  rw [(records_shared kind calls).names] at here
  rw [(records_shared kind (calls ++ more)).names, List.filterMap_append, List.eraseDups_append,
    List.getElem?_append_left (List.getElem?_eq_some_iff.mp here).1, here]

theorem exists_later_entry {place : Nat} {entry : Entry α}
    (here : (kind.shared calls).entries[place]? = some entry) (more : List (Call δ κ)) :
    ∃ later, (kind.shared (calls ++ more)).entries[place]? = some later ∧
      later.name = entry.name ∧ kind.declaration later = kind.declaration entry ∧
      (kind.shared (calls ++ more)).table.find? entry.name = some later := by
  have listed : (kind.shared calls).table.names[place]? = some entry.name := by
    rw [names, entries_shared, List.getElem?_map, here, Option.map_some]
  have listedLater := getElem?_names_append kind calls listed more
  rw [names, entries_shared, List.getElem?_map] at listedLater
  obtain ⟨later, there, same⟩ := Option.map_eq_some_iff.mp listedLater
  have found := find?_of_getElem? kind (calls ++ more) there
  rw [same] at found
  refine ⟨later, there, same, ?_, found⟩
  -- Both entries are what the first of all calls with this name declared.
  have first := (records_shared kind calls).exists_find?_iff.mp
    ⟨entry, find?_of_getElem? kind calls here, rfl⟩
  have declared := (records_shared kind (calls ++ more)).found entry.name
  rw [found, List.findSome?_append, first, Option.some_or, Option.map_some] at declared
  exact Option.some.inj declared

theorem firstWins : FirstWins kind calls where
  refines call := by
    rw [← (sound_shared kind calls).2]
    exact refines_shared kind calls call
  names := (records_shared kind calls).names
  nodup := (records_shared kind calls).nodup
  found := (records_shared kind calls).found
  declares := by
    intro name what location sourceLine new
    have refines := refines_shared kind calls (.declare name what location sourceLine)
    rw [(records_shared kind calls).answer_declare_of_none new] at refines
    obtain ⟨_ | place, next, done, left, there⟩ := refines.of_ok
    · cases there
    · exact ⟨place, next, done, Option.some.inj there, left⟩
  duplicate := by
    intro name what location sourceLine first known
    have refines := refines_shared kind calls (.declare name what location sourceLine)
    rw [(records_shared kind calls).answer_declare_of_some known] at refines
    exact refines.of_error
  looksUp name := (refines_shared kind calls (.lookup name)).of_ok
  resolves := by
    intro name location sourceLine first known
    have refines := refines_shared kind calls (.resolve name location sourceLine)
    obtain ⟨entry, answered, same, declared⟩ :=
      (records_shared kind calls).answer_resolve_of_some known location sourceLine
    rw [answered] at refines
    obtain ⟨_ | place, next, done, left, there⟩ := refines.of_ok
    · cases there
    · exact ⟨place, next, entry, done, left, Option.some.inj there, same, declared⟩
  undefined := by
    intro name location sourceLine unknown
    have refines := refines_shared kind calls (.resolve name location sourceLine)
    rw [(records_shared kind calls).answer_resolve_of_none unknown] at refines
    exact refines.of_error
  assigns := by
    intro place what entry here
    refine ⟨(kind.shared calls).change place (kind.change what), rfl, ?_⟩
    rw [kind.assign_eq]
    exact (sound_shared kind calls).1.table_change here _
  fails call _ _ failed := (refines_shared kind calls call).eq_of_error failed
  stays more _ _ here := exists_later_entry kind calls here more

/-- The second declaration of a name fails, and the address goes to the first one. -/
example :
    (Kind.symbols.shared [.declare "b" "1" ⟨"in", 1⟩ none, .declare "a" "2" ⟨"in", 2⟩ none,
      .declare "b" "3" ⟨"in", 3⟩ none, .assign 0 (some 7)]).table.entries =
      [⟨"b", ⟨"in", 1⟩, "1", some 7⟩, ⟨"a", ⟨"in", 2⟩, "2", none⟩] := by
  decide

end Wins

/-- Variables and labels are found as they were declared first, whatever was called
before, and the variables with an address are listed in the order of their addresses. -/
theorem first_declaration_wins :
    (∀ calls : List (Call String (Option Int)),
      FirstWins .symbols calls ∧ SymbolTable.ListsAllocated (Kind.symbols.shared calls).table) ∧
    ∀ (ι : Type) (calls : List (Call ι Empty)), FirstWins (.labels ι) calls :=
  ⟨fun calls => ⟨firstWins .symbols calls, SymbolTable.listsAllocated _⟩,
    fun ι calls => firstWins (.labels ι) calls⟩

end DecimalMachine.Table
