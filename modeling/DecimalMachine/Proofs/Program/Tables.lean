import DecimalMachine.Program.Table
import Mathlib.Data.List.Nodup

/-!
# Names and addresses in tables

A name is found in a table if and only if the table lists it.  The addresses of
a symbol table are listed in ascending order, each with its name.  So are its
variables with an address, and those that share one are listed as they were declared.
-/

namespace DecimalMachine

namespace Table

variable {α : Type} {table : Table α} {f : String → α → α} {name : String}

theorem name_of_find? {entry : Entry α} (found : table.find? name = some entry) :
    entry.name = name := by
  have agrees := List.find?_some (show table.entries.find? _ = some entry from found)
  exact eq_of_beq agrees

theorem find?_eq_none_iff : table.find? name = none ↔ name ∉ table.names := by
  simp only [find?, names, List.find?_eq_none, List.mem_map, beq_iff_eq]
  constructor
  · rintro missing ⟨entry, member, rfl⟩
    exact missing entry member rfl
  · intro missing entry member same
    exact missing ⟨entry, member, same⟩

theorem exists_find?_iff : (∃ entry, table.find? name = some entry) ↔ name ∈ table.names := by
  rw [← Option.ne_none_iff_exists', Ne, find?_eq_none_iff, not_not]

theorem find?_mapValues :
    (table.mapValues f).find? name =
      (table.find? name).map fun entry => { entry with value := f entry.name entry.value } := by
  simp only [find?, mapValues, List.find?_map]
  rfl

theorem names_mapValues : (table.mapValues f).names = table.names := by
  simp [names, mapValues]

/-- A name is looked up where it was declared first. -/
theorem map_location_find?_add {location : Location} {value : α} {other : String} :
    ((table.add name location value).find? other).map (·.location) =
      ((table.find? other).map (·.location)).or (if name = other then some location else none) := by
  rw [find?_add, Option.map_or]
  by_cases same : name = other <;> simp [same]

theorem declare_eq_error_iff {kind : SymbolKind} {value : α} {location : Location}
    {sourceLine : Option String} {error : CompileError} :
    table.declare kind name value location sourceLine = .error error ↔
      ∃ earlier, (table.find? name).map (·.location) = some earlier ∧
        error = ⟨.duplicate kind name earlier, some location, sourceLine⟩ := by
  unfold declare
  cases table.find? name <;> simp [eq_comm]

theorem resolve_eq_error_iff {kind : SymbolKind} {location : Option Location}
    {sourceLine : Option String} {error : CompileError} :
    table.resolve kind name location sourceLine = .error error ↔
      name ∉ table.names ∧
        error = ⟨.undefined kind name (Text.closeMatches 3 name table.names), location,
          sourceLine⟩ := by
  rw [← find?_eq_none_iff, resolve]
  cases table.find? name <;> simp [eq_comm]

/-- In a table that lists no name twice every entry is found. -/
theorem find?_eq_some_iff (nodup : table.names.Nodup) {entry : Entry α} :
    table.find? name = some entry ↔ entry ∈ table.entries ∧ entry.name = name := by
  constructor
  · intro found
    exact ⟨List.mem_of_find?_eq_some found, name_of_find? found⟩
  · rintro ⟨member, rfl⟩
    obtain ⟨other, found⟩ := exists_find?_iff.mpr (List.mem_map_of_mem member)
    have same : other = entry := List.inj_on_of_nodup_map nodup (List.mem_of_find?_eq_some found)
      member (name_of_find? found)
    rw [found, same]

end Table

/-! ## The order of addresses -/

section Sorting

variable {β : Type} {address : Int} {keeps : β × Int → Bool}

theorem trans_le_snd (first second third : β × Int) (below : decide (first.2 ≤ second.2) = true)
    (above : decide (second.2 ≤ third.2) = true) : decide (first.2 ≤ third.2) = true := by
  simp only [decide_eq_true_eq] at below above ⊢
  exact Int.le_trans below above

theorem total_le_snd (first second : β × Int) :
    (decide (first.2 ≤ second.2) || decide (second.2 ≤ first.2)) = true := by
  simpa using Int.le_total first.2 second.2

theorem pairwise_mergeSort_snd (items : List (β × Int)) :
    (items.mergeSort fun first second => first.2 ≤ second.2).Pairwise fun first second =>
      first.2 ≤ second.2 :=
  (List.pairwise_mergeSort trans_le_snd total_le_snd items).imp of_decide_eq_true

/-- What shares an address stays in its order. -/
theorem filter_mergeSort_snd {items : List (β × Int)}
    (shared : ∀ item ∈ items, keeps item = true → item.2 = address) :
    (items.mergeSort fun first second => first.2 ≤ second.2).filter keeps = items.filter keeps := by
  have sorted : (items.filter keeps).Pairwise fun first second =>
      decide (first.2 ≤ second.2) = true := by
    apply List.pairwise_of_forall_mem_list
    intro first firstMem second secondMem
    obtain ⟨firstMem, firstKept⟩ := List.mem_filter.mp firstMem
    obtain ⟨secondMem, secondKept⟩ := List.mem_filter.mp secondMem
    rw [shared first firstMem firstKept, shared second secondMem secondKept]
    exact decide_eq_true (Int.le_refl address)
  -- The sorted list contains what is kept in the old order, and nothing else that is kept.
  have inside := (List.sublist_mergeSort trans_le_snd total_le_snd sorted
    List.filter_sublist).filter keeps
  rw [List.filter_filter] at inside
  simp only [Bool.and_self] at inside
  have length := ((List.mergeSort_perm items fun first second =>
    decide (first.2 ≤ second.2)).filter keeps).length_eq
  exact (inside.eq_of_length length.symm).symm

end Sorting

namespace SymbolTable

variable {table : SymbolTable}

/-- The variables with an address, in the order of declaration. -/
def slots (table : SymbolTable) : List (Entry Variable × Int) :=
  table.entries.filterMap fun entry => entry.value.address.map (entry, ·)

/-- The names with an address, in the order of declaration. -/
def placed (table : SymbolTable) : List (String × Int) :=
  table.entries.filterMap fun entry => entry.value.address.map (entry.name, ·)

/-- The addresses are the placed names, sorted. -/
theorem addresses_eq_mergeSort (table : SymbolTable) :
    table.addresses = table.placed.mergeSort fun first second => first.2 ≤ second.2 := by
  have same : table.placed = table.slots.map fun slot => (slot.1.name, slot.2) := by
    rw [placed, slots, List.map_filterMap]
    congr 1
    funext entry
    cases entry.value.address <;> rfl
  rw [same]
  exact List.map_mergeSort fun _ _ _ _ => rfl

theorem perm_addresses (table : SymbolTable) : table.addresses.Perm table.placed := by
  rw [addresses_eq_mergeSort]
  exact List.mergeSort_perm _ _

theorem pairwise_addresses (table : SymbolTable) :
    table.addresses.Pairwise fun first second => first.2 ≤ second.2 := by
  rw [addresses_eq_mergeSort]
  exact pairwise_mergeSort_snd _

theorem nodup_placed (nodup : table.names.Nodup) : table.placed.Nodup := by
  apply List.Nodup.of_map Prod.fst
  refine nodup.sublist ?_
  obtain ⟨entries⟩ := table
  induction entries with
  | nil => exact .slnil
  | cons entry rest ih =>
      have later := ih (List.nodup_cons.mp nodup).2
      cases address : entry.value.address with
      | none => simpa [placed, Table.names, address] using later.cons entry.name
      | some place => simpa [placed, Table.names, address] using later.cons_cons entry.name

/-- The listed addresses are those of the table in ascending order. -/
theorem addresses_eq {expected : List (String × Int)} (nodup : table.names.Nodup)
    (sorted : expected.Pairwise fun first second => first.2 < second.2)
    (member : ∀ name address, (name, address) ∈ expected ↔
      ∃ entry, table.find? name = some entry ∧ entry.value.address = some address) :
    table.addresses = expected := by
  have addressNodup : (expected.map Prod.snd).Nodup :=
    List.pairwise_map.mpr (sorted.imp fun before => Int.ne_of_lt before)
  have perm : table.addresses.Perm expected := by
    refine table.perm_addresses.trans
      ((List.perm_ext_iff_of_nodup (nodup_placed nodup) addressNodup.of_map).mpr ?_)
    rintro ⟨name, address⟩
    simp only [member, placed, List.mem_filterMap, Table.find?_eq_some_iff nodup,
      Option.map_eq_some_iff, Prod.mk.injEq]
    constructor
    · rintro ⟨entry, memEntries, _, placed, rfl, rfl⟩
      exact ⟨entry, ⟨memEntries, rfl⟩, placed⟩
    · rintro ⟨entry, ⟨memEntries, rfl⟩, placed⟩
      exact ⟨entry, memEntries, address, placed, rfl, rfl⟩
  refine perm.eq_of_pairwise ?_ table.pairwise_addresses
    (sorted.imp fun before => Int.le_of_lt before)
  intro first second firstMem secondMem before behind
  exact List.inj_on_of_nodup_map addressNodup (perm.mem_iff.mp firstMem) secondMem
    (Int.le_antisymm before behind)

/-! ## Allocated variables -/

/-- The variables with an address are listed, each with its address, in ascending
order of the addresses, and those that share one in the order of declaration. -/
structure ListsAllocated (table : SymbolTable) : Prop where
  address : ∀ slot ∈ table.allocated, slot.1.value.address = some slot.2
  perm : (table.allocated.map (·.1)).Perm (table.entries.filter (·.value.address.isSome))
  ascending : table.allocated.Pairwise fun first second => first.2 ≤ second.2
  stable : ∀ address : Int,
    (table.allocated.map (·.1)).filter (·.value.address == some address) =
      table.entries.filter (·.value.address == some address)

theorem address_of_mem_slots {slot : Entry Variable × Int} (member : slot ∈ table.slots) :
    slot.1.value.address = some slot.2 := by
  obtain ⟨entry, _, placed⟩ := List.mem_filterMap.mp member
  obtain ⟨address, allocated, rfl⟩ := Option.map_eq_some_iff.mp placed
  exact allocated

theorem map_fst_slots (table : SymbolTable) :
    table.slots.map (·.1) = table.entries.filter (·.value.address.isSome) := by
  rw [slots, List.map_filterMap, ← List.filterMap_eq_filter]
  congr 1
  funext entry
  cases address : entry.value.address <;> simp [Option.guard, address]

theorem listsAllocated (table : SymbolTable) : table.ListsAllocated where
  address _ member := address_of_mem_slots ((List.mergeSort_perm _ _).mem_iff.mp member)
  perm := by
    rw [← map_fst_slots]
    exact (List.mergeSort_perm _ _).map _
  ascending := pairwise_mergeSort_snd table.slots
  stable := by
    intro address
    have shared : ∀ slot ∈ table.slots, (slot.1.value.address == some address) = true →
        slot.2 = address := by
      intro slot member same
      rw [address_of_mem_slots member, beq_iff_eq] at same
      exact Option.some.inj same
    have inside : ∀ entry : Entry Variable,
        ((entry.value.address == some address) && entry.value.address.isSome) =
          (entry.value.address == some address) := by
      intro entry
      cases entry.value.address <;> simp
    calc
      (table.allocated.map (·.1)).filter (·.value.address == some address)
        = (table.allocated.filter (·.1.value.address == some address)).map (·.1) := List.filter_map
      _ = (table.slots.filter (·.1.value.address == some address)).map (·.1) :=
          congrArg _ (filter_mergeSort_snd shared)
      _ = (table.slots.map (·.1)).filter (·.value.address == some address) := by
          rw [List.filter_map]
          rfl
      _ = table.entries.filter (·.value.address == some address) := by
          rw [map_fst_slots, List.filter_filter]
          exact congrArg (List.filter · _) (funext inside)

end SymbolTable

end DecimalMachine
