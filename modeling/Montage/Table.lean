/-!
# Tables by name

A table holds values by name and keeps the order in which the names first came. Setting a name
that is there replaces its value and leaves its place.
-/

namespace Montage

/-- Values by name, in the order in which the names first came. -/
abbrev Table (α : Type) := List (String × α)

namespace Table

variable {α : Type}

/-- Set the value of a name. -/
def insert (table : Table α) (name : String) (value : α) : Table α :=
  if table.any (·.1 == name) then
    table.map fun entry => if entry.1 == name then (name, value) else entry
  else table ++ [(name, value)]

/-- The value of a name. -/
def find? (table : Table α) (name : String) : Option α :=
  (List.find? (·.1 == name) table).map (·.2)

/-- Holds of the names in the table. -/
def has (table : Table α) (name : String) : Bool :=
  table.any (·.1 == name)

/-- The table that a list of entries builds, one after another. -/
def ofEntries (entries : List (String × α)) : Table α :=
  entries.foldl (fun table entry => table.insert entry.1 entry.2) []

@[simp] theorem find?_nil (name : String) : find? ([] : Table α) name = none := rfl

theorem find?_cons (entry : String × α) (rest : Table α) (name : String) :
    find? (entry :: rest) name = if entry.1 = name then some entry.2 else find? rest name := by
  by_cases equal : entry.1 = name <;> simp [find?, equal]

theorem find?_append (left right : Table α) (name : String) :
    find? (left ++ right) name = (find? left name).or (find? right name) := by
  simp [find?, List.find?_append, Option.map_or]

theorem has_eq_isSome (table : Table α) (name : String) :
    table.has name = (table.find? name).isSome := by
  rw [has, find?, Option.isSome_map, List.isSome_find?]

/-- Replacing the values of a name keeps which names there are. -/
theorem find?_replace (table : Table α) (name other : String) (value : α) :
    find? (table.map fun entry => if entry.1 == name then (name, value) else entry) other =
      if name = other then (table.find? other).map fun _ => value else table.find? other := by
  induction table with
  | nil => simp
  | cons entry rest ih =>
      rw [List.map_cons, find?_cons, find?_cons, ih]
      by_cases same : entry.1 = name
      · by_cases asked : name = other <;> simp [same, asked]
      · by_cases asked : name = other
        · simp [← asked, same]
        · simp [same, asked]

/-- Setting a value shows at its name and nowhere else. -/
theorem find?_insert (table : Table α) (name other : String) (value : α) :
    (table.insert name value).find? other =
      if name = other then some value else table.find? other := by
  have present := has_eq_isSome table name
  unfold insert
  split
  next found =>
    obtain ⟨old, equal⟩ := Option.isSome_iff_exists.mp (present.symm.trans found)
    rw [find?_replace]
    by_cases asked : name = other
    · simp [← asked, equal]
    · simp [asked]
  next missing =>
    have absent : table.find? name = none := by
      simpa [present] using (show ¬table.has name = true from missing)
    rw [find?_append]
    by_cases asked : name = other
    · simp [← asked, absent, find?_cons]
    · simp [asked, find?_cons]

/-- The names in the table are those of its entries. -/
theorem has_iff_mem_keys (table : Table α) (name : String) :
    table.has name = true ↔ name ∈ table.map (·.1) := by
  simp [has]

/-- A new name comes last. -/
theorem insert_of_not_has {table : Table α} {name : String} (missing : table.has name = false)
    (value : α) : table.insert name value = table ++ [(name, value)] := by
  have absent : ¬table.any (·.1 == name) = true := Bool.eq_false_iff.mp missing
  rw [insert, if_neg absent]

theorem has_insert (table : Table α) (name other : String) (value : α) :
    (table.insert name value).has other = (decide (name = other) || table.has other) := by
  rw [has_eq_isSome, find?_insert, has_eq_isSome]
  by_cases same : name = other <;> simp [same]

/-- Without the entries of a name the other names are there as before. -/
theorem has_filter_ne (table : Table α) (name other : String) :
    has (table.filter (·.1 != name)) other = (table.has other && decide (name ≠ other)) := by
  rw [Bool.eq_iff_iff]
  simp only [has, List.any_filter, List.any_eq_true, Bool.and_eq_true, decide_eq_true_eq,
    bne_iff_ne, beq_iff_eq]
  constructor
  · rintro ⟨entry, member, apart, rfl⟩
    exact ⟨⟨entry, member, rfl⟩, Ne.symm apart⟩
  · rintro ⟨⟨entry, member, rfl⟩, apart⟩
    exact ⟨entry, member, Ne.symm apart, rfl⟩

/-- Of the entries with one name the last one counts. -/
theorem find?_ofEntries (entries : List (String × α)) (name : String) :
    (ofEntries entries).find? name = find? entries.reverse name := by
  have general (table : Table α) :
      (entries.foldl (fun table entry => table.insert entry.1 entry.2) table).find? name =
        (find? entries.reverse name).or (table.find? name) := by
    induction entries generalizing table with
    | nil => rfl
    | cons entry rest ih =>
        rw [List.foldl_cons, ih, find?_insert, List.reverse_cons, find?_append, find?_cons,
          Option.or_assoc]
        split <;> simp
  simpa [ofEntries] using general []

end Table

end Montage
