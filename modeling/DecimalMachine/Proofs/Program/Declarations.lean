import DecimalMachine.Proofs.Occurrences
import DecimalMachine.Proofs.Outcomes
import DecimalMachine.Proofs.Program.Tables

/-!
# First declarations

A table is asked to declare, to look up and to resolve names, and an entry that it
handed out may be assigned something later.  Whatever it was asked before, it lists
the declared names in the order of their first declarations, each once, and what it
finds under a name is what was declared first.
-/

namespace DecimalMachine.Table

/-- What tables of a kind do, on values of their own: a declaration makes a value of
what is given, and an assignment changes a value but not what was given. -/
structure Kind (δ κ α : Type) where
  symbol : SymbolKind
  declare : Table α → String → δ → Location → Option String → Except CompileError (Table α)
  assign : Table α → String → κ → Table α
  make : δ → α
  change : κ → α → α
  given : α → δ
  declare_eq : ∀ table name what location sourceLine,
    declare table name what location sourceLine =
      table.declare symbol name (make what) location sourceLine
  assign_eq : ∀ table name what, assign table name what =
    table.mapValues fun other value => if other = name then change what value else value
  given_make : ∀ what, given (make what) = what
  given_change : ∀ what value, given (change what value) = given value

/-- Symbol tables: a variable is declared with the text of its value, and is assigned
addresses. -/
def Kind.symbols : Kind String (Option Int) Variable where
  symbol := .variable
  declare := SymbolTable.declare
  assign := SymbolTable.setAddress
  make text := ⟨text, none⟩
  change address entry := { entry with address := address }
  given := Variable.value
  declare_eq _ _ _ _ _ := rfl
  assign_eq _ _ _ := rfl
  given_make _ := rfl
  given_change _ _ := rfl

/-- Tables of labels: a label is declared with an index, and stays as it is. -/
def Kind.labels (ι : Type) : Kind ι Empty ι where
  symbol := .label
  declare := Table.declare .label
  assign _ _ := nofun
  make index := index
  change := nofun
  given index := index
  declare_eq _ _ _ _ _ := rfl
  assign_eq _ _ := nofun
  given_make _ := rfl
  given_change := nofun

/-- What a table is asked. An entry is assigned something by its place, which is the
number of entries that were there before it. -/
inductive Call (δ κ : Type) where
  | declare (name : String) (what : δ) (location : Location) (sourceLine : Option String)
  | lookup (name : String)
  | resolve (name : String) (location : Option Location) (sourceLine : Option String)
  | assign (place : Nat) (what : κ)

namespace Call

variable {δ κ : Type}

/-- The name that a call declares. -/
def declares? : Call δ κ → Option String
  | .declare name .. => some name
  | _ => none

/-- What a call declares under a name, and where. -/
def declaration? (name : String) : Call δ κ → Option (Location × δ)
  | .declare other what location _ => if other = name then some (location, what) else none
  | _ => none

end Call

variable {δ κ α : Type}

namespace Kind

variable (kind : Kind δ κ α)

/-- Answer a call: with the entry that is declared or found, if any, and the table as
it is then. -/
def answer (table : Table α) : Call δ κ → Except CompileError (Option (Entry α) × Table α)
  | .declare name what location sourceLine =>
      (fun next => (next.find? name, next)) <$> kind.declare table name what location sourceLine
  | .lookup name => .ok (table.find? name, table)
  | .resolve name location sourceLine =>
      (fun entry => (some entry, table)) <$> table.resolve kind.symbol name location sourceLine
  | .assign place what =>
      match table.entries[place]? with
      | some entry => .ok (none, kind.assign table entry.name what)
      | none => .ok (none, table)

/-- The table after a call, which is the same if the call fails. -/
def next (table : Table α) (call : Call δ κ) : Table α :=
  match kind.answer table call with
  | .ok (_, changed) => changed
  | .error _ => table

/-- The table after calls, first one first. -/
def after (calls : List (Call δ κ)) : Table α :=
  calls.foldl kind.next .empty

/-- Where an entry was declared, and with what. -/
def declaration (entry : Entry α) : Location × δ :=
  (entry.location, kind.given entry.value)

theorem after_concat (calls : List (Call δ κ)) (call : Call δ κ) :
    kind.after (calls ++ [call]) = kind.next (kind.after calls) call := by
  rw [after, List.foldl_append]
  rfl

end Kind

/-! ## One call -/

section Calls

variable {kind : Kind δ κ α} {table : Table α} {name : String}

theorem next_declare (what : δ) (location : Location) (sourceLine : Option String) :
    kind.next table (.declare name what location sourceLine) =
      if name ∈ table.names then table else table.add name location (kind.make what) := by
  simp only [Kind.next, Kind.answer, kind.declare_eq, declare]
  cases found : table.find? name with
  | some first =>
      rw [if_pos (exists_find?_iff.mp ⟨first, found⟩)]
      rfl
  | none =>
      rw [if_neg (find?_eq_none_iff.mp found)]
      rfl

theorem next_resolve (location : Option Location) (sourceLine : Option String) :
    kind.next table (.resolve name location sourceLine) = table := by
  simp only [Kind.next, Kind.answer]
  cases table.resolve kind.symbol name location sourceLine <;> rfl

/-- An assignment keeps the names. -/
theorem names_next_assign (place : Nat) (what : κ) :
    (kind.next table (.assign place what)).names = table.names := by
  simp only [Kind.next, Kind.answer]
  cases table.entries[place]? with
  | some entry => exact (congrArg names (kind.assign_eq _ _ _)).trans names_mapValues
  | none => rfl

/-- An assignment keeps what was declared. -/
theorem declaration_next_assign (place : Nat) (what : κ) :
    ((kind.next table (.assign place what)).find? name).map kind.declaration =
      (table.find? name).map kind.declaration := by
  simp only [Kind.next, Kind.answer]
  cases table.entries[place]? with
  | some entry =>
      simp only [kind.assign_eq, find?_mapValues, Option.map_map]
      congr 1
      funext other
      simp only [Function.comp_apply, Kind.declaration]
      split
      · rw [kind.given_change]
      · rfl
  | none => rfl

end Calls

/-! ## All calls -/

/-- A table has recorded the first declarations of calls. -/
structure Records (kind : Kind δ κ α) (calls : List (Call δ κ)) (table : Table α) : Prop where
  names : table.names = (calls.filterMap Call.declares?).eraseDups
  found : ∀ name, (table.find? name).map kind.declaration =
    calls.findSome? (Call.declaration? name)

variable {kind : Kind δ κ α} {calls : List (Call δ κ)} {table : Table α}

theorem records_empty : Records kind [] .empty :=
  ⟨rfl, fun _ => rfl⟩

/-- A declaration is recorded if it is the first one of its name. -/
theorem Records.declare (records : Records kind calls table) (name : String) (what : δ)
    (location : Location) (sourceLine : Option String) :
    Records kind (calls ++ [Call.declare name what location sourceLine])
      (kind.next table (.declare name what location sourceLine)) := by
  have known : name ∈ calls.filterMap Call.declares? ↔ name ∈ table.names := by
    rw [records.names, List.mem_eraseDups]
  rw [next_declare]
  constructor
  · have last : (calls ++ [Call.declare name what location sourceLine]).filterMap
        Call.declares? = calls.filterMap Call.declares? ++ [name] := List.filterMap_append
    rw [last, eraseDups_concat, ← records.names]
    simp only [known]
    split
    · rfl
    · rw [names_add]
  · intro other
    rw [List.findSome?_append, ← records.found]
    split
    · next listed =>
        obtain ⟨first, found⟩ := exists_find?_iff.mpr listed
        by_cases same : name = other
        · subst same
          simp [found]
        · simp [Call.declaration?, same]
    · rw [find?_add, Option.map_or]
      by_cases same : name = other
      · simp [Call.declaration?, Kind.declaration, same, kind.given_make]
      · simp [Call.declaration?, same]

/-- A call that declares nothing leaves the record as it is. -/
theorem Records.concat (records : Records kind calls table) {call : Call δ κ} {next : Table α}
    (undeclared : call.declares? = none) (names : next.names = table.names)
    (found : ∀ name, (next.find? name).map kind.declaration =
      (table.find? name).map kind.declaration) : Records kind (calls ++ [call]) next := by
  constructor
  · rw [names, records.names, List.filterMap_append]
    simp [undeclared]
  · intro name
    have nothing : call.declaration? name = none := by
      cases call with
      | declare => cases undeclared
      | lookup | resolve | assign => rfl
    rw [found, records.found, List.findSome?_append]
    simp [nothing]

theorem Records.next (records : Records kind calls table) (call : Call δ κ) :
    Records kind (calls ++ [call]) (kind.next table call) := by
  cases call with
  | declare name what location sourceLine => exact records.declare name what location sourceLine
  | lookup name => exact records.concat rfl rfl fun _ => rfl
  | resolve name location sourceLine =>
      rw [next_resolve]
      exact records.concat rfl rfl fun _ => rfl
  | assign place what =>
      exact records.concat rfl (names_next_assign place what) fun name =>
        declaration_next_assign place what

/-- After all calls the table has recorded the first declarations. -/
theorem records_after (kind : Kind δ κ α) (calls : List (Call δ κ)) :
    Records kind calls (kind.after calls) := by
  induction calls using List.reverseRecOn with
  | nil => exact records_empty
  | append_singleton calls call ih =>
      rw [kind.after_concat]
      exact ih.next call

/-! ## Answers -/

namespace Records

variable {name : String}

/-- A name is found if and only if there is a first declaration of it. -/
theorem find?_eq_none_iff (records : Records kind calls table) :
    table.find? name = none ↔ calls.findSome? (Call.declaration? name) = none := by
  rw [← records.found, Option.map_eq_none_iff]

theorem exists_find?_iff (records : Records kind calls table) {first : Location × δ} :
    (∃ entry, table.find? name = some entry ∧ kind.declaration entry = first) ↔
      calls.findSome? (Call.declaration? name) = some first := by
  rw [← records.found, Option.map_eq_some_iff]

/-- A second declaration is told where the first one is. -/
theorem answer_declare_of_some (records : Records kind calls table) {first : Location × δ}
    (known : calls.findSome? (Call.declaration? name) = some first) (what : δ)
    (location : Location) (sourceLine : Option String) :
    kind.answer table (.declare name what location sourceLine) =
      .error ⟨.duplicate kind.symbol name first.1, some location, sourceLine⟩ := by
  obtain ⟨entry, found, rfl⟩ := records.exists_find?_iff.mpr known
  rw [Kind.answer, kind.declare_eq, map_eq_error_iff, declare_eq_error_iff]
  exact ⟨entry.location, by rw [found, Option.map_some], rfl⟩

/-- A first declaration adds its entry. -/
theorem answer_declare_of_none (records : Records kind calls table)
    (new : calls.findSome? (Call.declaration? name) = none) (what : δ) (location : Location)
    (sourceLine : Option String) :
    kind.answer table (.declare name what location sourceLine) =
      .ok (some ⟨name, location, kind.make what⟩, table.add name location (kind.make what)) := by
  have missing := records.find?_eq_none_iff.mpr new
  rw [Kind.answer, kind.declare_eq, map_eq_ok_iff]
  refine ⟨_, declare_eq_ok_iff.mpr ⟨missing, rfl⟩, ?_⟩
  rw [find?_add, missing, if_pos rfl]
  rfl

theorem answer_resolve_of_none (records : Records kind calls table)
    (unknown : calls.findSome? (Call.declaration? name) = none) (location : Option Location)
    (sourceLine : Option String) :
    kind.answer table (.resolve name location sourceLine) =
      .error ⟨.undefined kind.symbol name (Text.closeMatches 3 name table.names), location,
        sourceLine⟩ := by
  rw [Kind.answer, map_eq_error_iff, resolve_eq_error_iff]
  exact ⟨Table.find?_eq_none_iff.mp (records.find?_eq_none_iff.mpr unknown), rfl⟩

theorem answer_resolve_of_some (records : Records kind calls table) {first : Location × δ}
    (known : calls.findSome? (Call.declaration? name) = some first) (location : Option Location)
    (sourceLine : Option String) :
    ∃ entry, kind.answer table (.resolve name location sourceLine) = .ok (some entry, table) ∧
      entry.name = name ∧ kind.declaration entry = first := by
  obtain ⟨entry, found, same⟩ := records.exists_find?_iff.mpr known
  refine ⟨entry, ?_, name_of_find? found, same⟩
  rw [Kind.answer, map_eq_ok_iff]
  exact ⟨entry, resolve_eq_ok_iff.mpr found, rfl⟩

theorem nodup (records : Records kind calls table) : table.names.Nodup := by
  rw [records.names]
  exact nodup_eraseDups _

end Records

end DecimalMachine.Table
