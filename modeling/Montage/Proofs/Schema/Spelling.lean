import Mathlib
import Montage.Schema.Record

/-!
# Documents in two spellings

A document may spell each of its fields either way. Where no object spells a field twice, a reader
gives the same value for both spellings, or finds the same faults: at the same places, whose keys
are spelled as the document at hand spells them, while an absent field is reported by its wire
spelling. A reader has this property if its parts have it, so it is proved along the records.
-/

namespace Montage.Schema

/-! ## Respelled documents -/

/-- A key, and what may be written for it: the same, or the plain spelling of a field in place of
the wire spelling. -/
inductive Spelling (names : List FieldName) : String → String → Prop where
  | same (key : String) : Spelling names key key
  | plain {name : FieldName} (listed : name ∈ names) : Spelling names name.wire name.plain

/-- Entries whose keys and values correspond. -/
inductive EntryRespelled (names : List FieldName) (related : Json → Json → Prop) :
    String × Json → String × Json → Prop where
  | entry {key key' : String} {value value' : Json} (spelling : Spelling names key key')
      (content : related value value') : EntryRespelled names related (key, value) (key', value')

theorem EntryRespelled.key {names : List FieldName} {related : Json → Json → Prop}
    {entry entry' : String × Json} (respelled : EntryRespelled names related entry entry') :
    Spelling names entry.1 entry'.1 := by
  cases respelled with
  | entry spelling => exact spelling

theorem EntryRespelled.value {names : List FieldName} {related : Json → Json → Prop}
    {entry entry' : String × Json} (respelled : EntryRespelled names related entry entry') :
    related entry.2 entry'.2 := by
  cases respelled with
  | entry _ content => exact content

/-- A document, and one in which any wire spellings are replaced, at any depth. -/
inductive Respelled (names : List FieldName) : Json → Json → Prop where
  | null : Respelled names .null .null
  | bool (value : Bool) : Respelled names (.bool value) (.bool value)
  | number (value : Number) : Respelled names (.number value) (.number value)
  | string (value : String) : Respelled names (.string value) (.string value)
  | array {items items' : List Json} (each : List.Forall₂ (Respelled names) items items') :
      Respelled names (.array items) (.array items')
  | object {entries entries' : Json.Entries}
      (each : List.Forall₂ (EntryRespelled names (Respelled names)) entries entries') :
      Respelled names (.object entries) (.object entries')

/-- A value at any depth of a document. -/
inductive Part (part : Json) : Json → Prop where
  | self : Part part part
  | item {items : List Json} {item : Json} (member : item ∈ items) (inside : Part part item) :
      Part part (.array items)
  | entry {entries : Json.Entries} {key : String} {value : Json}
      (member : (key, value) ∈ entries) (inside : Part part value) : Part part (.object entries)

/-- The keys of an object are distinct, and no two of them spell one field. -/
structure SpelledOnce (names : List FieldName) (entries : Json.Entries) : Prop where
  distinct : (entries.map (·.1)).Nodup
  once : ∀ name ∈ names, entries.has name.wire = false ∨ entries.has name.plain = false

instance (names : List FieldName) (entries : Json.Entries) :
    Decidable (SpelledOnce names entries) :=
  decidable_of_iff (_ ∧ _) ⟨fun both => ⟨both.1, both.2⟩, fun once => ⟨once.distinct, once.once⟩⟩

/-- No object of a document carries both spellings of a field. -/
def Unambiguous (names : List FieldName) (document : Json) : Prop :=
  ∀ entries, Part (.object entries) document → SpelledOnce names entries

namespace Unambiguous

variable {names : List FieldName}

theorem string (value : String) : Unambiguous names (.string value) := by
  intro entries inside
  cases inside

theorem array {items : List Json} (each : ∀ item ∈ items, Unambiguous names item) :
    Unambiguous names (.array items) := by
  intro entries inside
  cases inside with
  | item member inside => exact each _ member entries inside

theorem object {entries : Json.Entries} (once : SpelledOnce names entries)
    (each : ∀ entry ∈ entries, Unambiguous names entry.2) :
    Unambiguous names (.object entries) := by
  intro inner inside
  cases inside with
  | self => exact once
  | entry member inside => exact each _ member inner inside

theorem item {items : List Json} {item : Json} (unambiguous : Unambiguous names (.array items))
    (member : item ∈ items) : Unambiguous names item :=
  fun entries inside => unambiguous entries (.item member inside)

end Unambiguous

/-! ## Faults at the same place -/

/-- The same fault in two documents. Each step to its place goes to the same position in both, and
is named as the document names it. -/
inductive SameFault : Json → Json → Fault → Fault → Prop where
  | here {document document' : Json} (cause : Cause) :
      SameFault document document' ⟨[], cause⟩ ⟨[], cause⟩
  | missing {entries entries' : Json.Entries} {name : FieldName}
      (absent : name.find? entries = none) (absent' : name.find? entries' = none) :
      SameFault (.object entries) (.object entries') ⟨[.key name.wire], .missing⟩
        ⟨[.key name.wire], .missing⟩
  | entry {entries entries' : Json.Entries} {position : Nat} {key key' : String}
      {value value' : Json} {fault fault' : Fault}
      (stands : entries[position]? = some (key, value))
      (stands' : entries'[position]? = some (key', value'))
      (inner : SameFault value value' fault fault') :
      SameFault (.object entries) (.object entries') (fault.under (.key key))
        (fault'.under (.key key'))
  | item {items items' : List Json} {position : Nat} {value value' : Json} {fault fault' : Fault}
      (stands : items[position]? = some value) (stands' : items'[position]? = some value')
      (inner : SameFault value value' fault fault') :
      SameFault (.array items) (.array items') (fault.under (.index position))
        (fault'.under (.index position))

/-- Two checks that give the same value, or find the same faults in the same order. -/
inductive Agrees {α : Type} (document document' : Json) : Checked α → Checked α → Prop where
  | valid (value : α) : Agrees document document' (.valid value) (.valid value)
  | invalid {faults faults' : List Fault} (found : faults ≠ [])
      (same : List.Forall₂ (SameFault document document') faults faults') :
      Agrees document document' (.invalid faults) (.invalid faults')

variable {α β : Type} {document document' : Json} {names : List FieldName}

namespace Agrees

theorem refuse (cause : Cause) :
    Agrees document document' (.refuse cause : Checked α) (.refuse cause) :=
  .invalid (List.cons_ne_nil _ _) (.cons (.here cause) .nil)

theorem map {first first' : Checked α} (agrees : Agrees document document' first first')
    (change : α → β) : Agrees document document' (change <$> first) (change <$> first') := by
  cases agrees with
  | valid value => exact .valid (change value)
  | invalid found same => exact .invalid found same

theorem seq {first first' : Checked (α → β)} {second second' : Checked α}
    (agrees : Agrees document document' first first')
    (agrees' : Agrees document document' second second') :
    Agrees document document' (first <*> second) (first' <*> second') := by
  cases agrees with
  | valid change =>
      cases agrees' with
      | valid value => exact .valid (change value)
      | invalid found same => exact .invalid found same
  | invalid found same =>
      cases agrees' with
      | valid value => exact .invalid found same
      | invalid found' same' =>
          exact .invalid (List.append_ne_nil_of_left_ne_nil found _)
            (List.rel_append same same')

/-- Faults of a part are faults of the whole. -/
theorem under {part part' : Json} {step step' : PathStep} {first first' : Checked α}
    (agrees : Agrees part part' first first')
    (lift : ∀ fault fault', SameFault part part' fault fault' →
      SameFault document document' (fault.under step) (fault'.under step')) :
    Agrees document document' (first.under step) (first'.under step') := by
  cases agrees with
  | valid value => exact .valid value
  | invalid found same =>
      refine .invalid (by simpa using found) ?_
      rw [List.forall₂_map_left_iff, List.forall₂_map_right_iff]
      exact same.imp lift

end Agrees

/-! ## Readers -/

/-- A reader to which it does not matter how a document is spelled. -/
def IgnoresSpelling (names : List FieldName) (read : Reader α) : Prop :=
  ∀ document document', Unambiguous names document → Respelled names document document' →
    Agrees document document' (read document) (read document')

/-- A reader of values without parts refuses all containers alike, and refuses nothing but the
value itself. -/
structure IsScalar (read : Reader α) : Prop where
  array : ∀ items items', read (.array items) = read (.array items')
  object : ∀ entries entries', read (.object entries) = read (.object entries')
  outcome : ∀ document, (∃ value, read document = .valid value) ∨
    ∃ cause, read document = .refuse cause

theorem IsScalar.ignoresSpelling {read : Reader α} (scalar : IsScalar read) :
    IgnoresSpelling names read := by
  intro document document' _ respelled
  have equal : read document = read document' := by
    cases respelled with
    | null => rfl
    | bool => rfl
    | number => rfl
    | string => rfl
    | array => exact scalar.array _ _
    | object => exact scalar.object _ _
  rw [← equal]
  rcases scalar.outcome document with ⟨value, valid⟩ | ⟨cause, refused⟩
  · rw [valid]
    exact .valid value
  · rw [refused]
    exact .refuse cause

/-! ### Scalars -/

theorem isScalar_readString : IsScalar readString where
  array _ _ := rfl
  object _ _ := rfl
  outcome document := by
    cases document with
    | string value => exact .inl ⟨value, rfl⟩
    | _ => exact .inr ⟨.notString, rfl⟩

theorem isScalar_readNumber : IsScalar readNumber where
  array _ _ := rfl
  object _ _ := rfl
  outcome document := by
    unfold readNumber
    split
    · split
      · exact .inl ⟨_, rfl⟩
      · exact .inr ⟨_, rfl⟩
    · exact .inl ⟨_, rfl⟩
    · split
      · exact .inl ⟨_, rfl⟩
      · exact .inr ⟨_, rfl⟩
    · exact .inr ⟨_, rfl⟩

theorem outcome_ofIntegerResult (result : Except Cause Int) :
    (∃ value, ofIntegerResult result = .valid value) ∨
      ∃ cause, ofIntegerResult result = .refuse cause := by
  cases result with
  | ok value => exact .inl ⟨value, rfl⟩
  | error cause => exact .inr ⟨cause, rfl⟩

theorem isScalar_readInteger : IsScalar readInteger where
  array _ _ := rfl
  object _ _ := rfl
  outcome document := by
    unfold readInteger
    split
    · exact .inl ⟨_, rfl⟩
    · exact outcome_ofIntegerResult _
    · exact .inl ⟨_, rfl⟩
    · exact outcome_ofIntegerResult _
    · exact .inr ⟨_, rfl⟩

theorem outcome_truthOfInteger (value : Int) :
    (∃ truth, truthOfInteger value = .valid truth) ∨
      ∃ cause, truthOfInteger value = .refuse cause := by
  unfold truthOfInteger
  split
  · exact .inl ⟨_, rfl⟩
  · split
    · exact .inl ⟨_, rfl⟩
    · exact .inr ⟨_, rfl⟩

theorem isScalar_readBoolean : IsScalar readBoolean where
  array _ _ := rfl
  object _ _ := rfl
  outcome document := by
    unfold readBoolean
    split
    · exact .inl ⟨_, rfl⟩
    · split
      · exact outcome_truthOfInteger _
      · exact .inr ⟨_, rfl⟩
    · split
      · exact outcome_truthOfInteger _
      · exact .inr ⟨_, rfl⟩
    · split
      · exact .inl ⟨_, rfl⟩
      · exact .inr ⟨_, rfl⟩
    · exact .inr ⟨_, rfl⟩

theorem isScalar_readChoice (choices : List (String × α)) : IsScalar (readChoice choices) where
  array _ _ := rfl
  object _ _ := rfl
  outcome document := by
    unfold readChoice
    split
    · split
      · exact .inl ⟨_, rfl⟩
      · exact .inr ⟨_, rfl⟩
    · exact .inr ⟨_, rfl⟩

theorem IgnoresSpelling.map {read : Reader α} (ignores : IgnoresSpelling names read)
    (change : α → β) : IgnoresSpelling names fun value => change <$> read value :=
  fun document document' unambiguous respelled =>
    (ignores document document' unambiguous respelled).map change

theorem IgnoresSpelling.orNull {read : Reader α} (ignores : IgnoresSpelling names read) :
    IgnoresSpelling names (orNull read) := by
  intro document document' unambiguous respelled
  have agrees := (ignores document document' unambiguous respelled).map some
  cases respelled with
  | null => exact .valid none
  | bool => exact agrees
  | number => exact agrees
  | string => exact agrees
  | array => exact agrees
  | object => exact agrees

/-! ### Lists -/

theorem IgnoresSpelling.readItems {read : Reader α} (ignores : IgnoresSpelling names read)
    {items items' : List Json} (unambiguous : Unambiguous names (.array items))
    (respelled : List.Forall₂ (Respelled names) items items') (before before' : List Json)
    (length : before.length = before'.length) :
    Agrees (.array (before ++ items)) (.array (before' ++ items'))
      (Schema.readItems read before.length items) (Schema.readItems read before.length items') := by
  induction respelled generalizing before before' with
  | nil => exact .valid []
  | @cons item item' items items' same _ ih =>
      have first := ignores item item' (unambiguous.item List.mem_cons_self) same
      have rest : Unambiguous names (.array items) := by
        intro entries inside
        cases inside with
        | item member inside =>
            exact unambiguous entries (.item (List.mem_cons_of_mem _ member) inside)
      have later := ih rest (before ++ [item]) (before' ++ [item']) (by simp [length])
      rw [List.append_assoc, List.append_assoc, List.length_append] at later
      refine ((first.under fun fault fault' same => ?_).map List.cons).seq later
      exact .item (by simp) (by simp [length]) same

theorem IgnoresSpelling.readList {read : Reader α} (ignores : IgnoresSpelling names read) :
    IgnoresSpelling names (readList read) := by
  intro document document' unambiguous respelled
  cases respelled with
  | array each => exact ignores.readItems unambiguous each [] [] rfl
  | null => exact .refuse .notList
  | bool => exact .refuse .notList
  | number => exact .refuse .notList
  | string => exact .refuse .notList
  | object => exact .refuse .notList

/-! ### Fields -/

/-- Holds of the keys that spell a field. -/
def FieldName.Spells (name : FieldName) (key : String) : Prop :=
  key = name.wire ∨ key = name.plain

instance (name : FieldName) (key : String) : Decidable (name.Spells key) :=
  inferInstanceAs (Decidable (key = name.wire ∨ key = name.plain))

/-- A field that is one of those with two spellings, or has one, and shares none with the others. -/
structure FieldName.Fits (names : List FieldName) (name : FieldName) : Prop where
  listed : name.wire = name.plain ∨ ∃ other ∈ names, other.wire = name.wire ∧
    other.plain = name.plain
  apart : ∀ other ∈ names, other.wire = name.wire ∧ other.plain = name.plain ∨
    ¬name.Spells other.wire ∧ ¬name.Spells other.plain

instance (names : List FieldName) (name : FieldName) : Decidable (name.Fits names) :=
  decidable_of_iff (_ ∧ _) ⟨fun both => ⟨both.1, both.2⟩, fun fits => ⟨fits.listed, fits.apart⟩⟩

variable {name : FieldName} {entries entries' : Json.Entries}

/-- A key goes on to spell a field however it is spelled. -/
theorem FieldName.Fits.spells_iff (fits : name.Fits names) {key key' : String}
    (spelling : Spelling names key key') : name.Spells key ↔ name.Spells key' := by
  cases spelling with
  | same => rfl
  | @plain other listed =>
      rcases fits.apart other listed with ⟨wire, plain⟩ | ⟨foreign, foreign'⟩
      · exact iff_of_true (.inl wire) (.inr plain)
      · exact iff_of_false foreign foreign'

/-- At most one entry spells the field. -/
theorem FieldName.Fits.pairwise (fits : name.Fits names) (once : SpelledOnce names entries) :
    entries.Pairwise fun first second => ¬(name.Spells first.1 ∧ name.Spells second.1) := by
  have distinct := List.pairwise_map.mp once.distinct
  refine distinct.imp_of_mem ?_
  rintro ⟨key, value⟩ ⟨key', value'⟩ member member' different ⟨spells, spells'⟩
  have has {key : String} {value : Json} (member : (key, value) ∈ entries) :
      entries.has key = true :=
    (Table.has_iff_mem_keys entries key).mpr (List.mem_map_of_mem member)
  have carried := has member
  have carried' := has member'
  -- Two distinct keys that spell the field are its two spellings.
  have both : name.wire ≠ name.plain ∧ entries.has name.wire = true ∧
      entries.has name.plain = true := by
    rcases spells with rfl | rfl <;> rcases spells' with rfl | rfl
    · exact absurd rfl different
    · exact ⟨different, carried, carried'⟩
    · exact ⟨different.symm, carried', carried⟩
    · exact absurd rfl different
  obtain ⟨twofold, wire, plain⟩ := both
  obtain ⟨other, listed, equal, equal'⟩ := fits.listed.resolve_left twofold
  rcases once.once other listed with missing | missing
  · rw [equal, wire] at missing
    contradiction
  · rw [equal', plain] at missing
    contradiction

/-- Where at most one entry spells a field, that entry is found. -/
theorem FieldName.find?_eq (once : entries.Pairwise fun first second =>
      ¬(name.Spells first.1 ∧ name.Spells second.1)) :
    name.find? entries = List.find? (fun entry => decide (name.Spells entry.1)) entries := by
  induction entries with
  | nil => rfl
  | cons entry rest ih =>
      obtain ⟨key, value⟩ := entry
      obtain ⟨alone, once⟩ := List.pairwise_cons.mp once
      rw [List.find?_cons, ← ih once, FieldName.find?, FieldName.find?, Table.find?_cons,
        Table.find?_cons]
      by_cases wire : key = name.wire
      · subst wire
        simp [FieldName.Spells]
      · by_cases plain : key = name.plain
        · -- The wire spelling would be found first, but no other entry spells the field.
          have missing : Table.find? rest name.wire = none := by
            rw [Table.find?, Option.map_eq_none_iff, List.find?_eq_none]
            intro other member spelled
            exact alone other member ⟨.inr plain, .inl (beq_iff_eq.mp spelled)⟩
          subst plain
          simp [FieldName.Spells, wire, missing]
        · simp [FieldName.Spells, wire, plain]

/-- In lists whose members correspond the same position is found. -/
theorem find?_of_forall₂ {related : α → β → Prop} {items : List α} {items' : List β}
    (each : List.Forall₂ related items items') {accepts : α → Bool} {accepts' : β → Bool}
    (alike : ∀ item item', related item item' → accepts item = accepts' item') :
    (items.find? accepts = none ∧ items'.find? accepts' = none) ∨
      ∃ (position : Nat) (item : α) (item' : β), items.find? accepts = some item ∧
        items'.find? accepts' = some item' ∧ items[position]? = some item ∧
        items'[position]? = some item' ∧ related item item' := by
  induction each with
  | nil => exact .inl ⟨rfl, rfl⟩
  | @cons item item' items items' same _ ih =>
      have equal := alike item item' same
      cases accepted : accepts item with
      | true =>
          rw [accepted] at equal
          exact .inr ⟨0, item, item', by rw [List.find?_cons, accepted],
            by rw [List.find?_cons, ← equal], rfl, rfl, same⟩
      | false =>
          rw [accepted] at equal
          rw [List.find?_cons, List.find?_cons, accepted, ← equal]
          exact ih.imp_right fun ⟨position, found⟩ => ⟨position + 1, found⟩

/-- The value of a field is found at one position, with corresponding keys, or the field is
absent. -/
theorem FieldName.Fits.find?_respelled (fits : name.Fits names)
    (unambiguous : Unambiguous names (.object entries))
    (respelled : Respelled names (.object entries) (.object entries')) :
    (name.find? entries = none ∧ name.find? entries' = none) ∨
      ∃ (position : Nat) (key key' : String) (value value' : Json),
        name.find? entries = some (key, value) ∧ name.find? entries' = some (key', value') ∧
        entries[position]? = some (key, value) ∧
        entries'[position]? = some (key', value') ∧ Unambiguous names value ∧
        Respelled names value value' := by
  have each : List.Forall₂ (EntryRespelled names (Respelled names)) entries entries' := by
    cases respelled with
    | object each => exact each
  have once := fits.pairwise (unambiguous entries .self)
  have once' : entries'.Pairwise fun first second =>
      ¬(name.Spells first.1 ∧ name.Spells second.1) := by
    obtain ⟨length, same⟩ := List.forall₂_iff_get.mp each
    have keeps (position : Nat) (inside : position < entries.length)
        (inside' : position < entries'.length) :
        name.Spells (entries.get ⟨position, inside⟩).1 ↔
          name.Spells (entries'.get ⟨position, inside'⟩).1 :=
      fits.spells_iff (same position inside inside').key
    rw [List.pairwise_iff_get] at once ⊢
    intro first second before both
    have inside (place : Fin entries'.length) : place.val < entries.length :=
      place.isLt.trans_eq length.symm
    apply once ⟨first, inside first⟩ ⟨second, inside second⟩ before
    exact both.imp (keeps first _ _).mpr (keeps second _ _).mpr
  rw [FieldName.find?_eq once, FieldName.find?_eq once']
  refine (find?_of_forall₂ each ?_).imp_right ?_
  · intro entry entry' same
    rw [decide_eq_decide]
    exact fits.spells_iff same.key
  · rintro ⟨position, entry, entry', found, found', stands, stands', same⟩
    refine ⟨position, _, _, _, _, found, found', stands, stands', ?_, same.value⟩
    intro entries inside
    exact unambiguous entries (.entry (List.mem_of_getElem? stands) inside)

/-- A check of the entries of an object to which it does not matter how the object is spelled. -/
def ChecksAlike (names : List FieldName) (check : Json.Entries → Checked α) : Prop :=
  ∀ entries entries', Unambiguous names (.object entries) →
    Respelled names (.object entries) (.object entries') →
      Agrees (.object entries) (.object entries') (check entries) (check entries')

namespace ChecksAlike

variable {read : Reader α}

theorem required (fits : name.Fits names) (ignores : IgnoresSpelling names read) :
    ChecksAlike names (required name read) := by
  intro entries entries' unambiguous respelled
  unfold Schema.required
  rcases fits.find?_respelled unambiguous respelled with ⟨absent, absent'⟩ |
    ⟨position, key, key', value, value', found, found', stands, stands', inner, same⟩
  · rw [absent, absent']
    exact .invalid (List.cons_ne_nil _ _) (.cons (.missing absent absent') .nil)
  · rw [found, found']
    exact (ignores value value' inner same).under fun _ _ same => .entry stands stands' same

theorem defaulted {standard : α} (fits : name.Fits names) (ignores : IgnoresSpelling names read) :
    ChecksAlike names (defaulted name standard read) := by
  intro entries entries' unambiguous respelled
  unfold Schema.defaulted
  rcases fits.find?_respelled unambiguous respelled with ⟨absent, absent'⟩ |
    ⟨position, key, key', value, value', found, found', stands, stands', inner, same⟩
  · rw [absent, absent']
    exact .valid standard
  · rw [found, found']
    exact (ignores value value' inner same).under fun _ _ same => .entry stands stands' same

theorem optional (fits : name.Fits names) (ignores : IgnoresSpelling names read) :
    ChecksAlike names (optional name read) :=
  defaulted fits ignores.orNull

theorem map {check : Json.Entries → Checked α} (alike : ChecksAlike names check)
    (change : α → β) : ChecksAlike names fun entries => change <$> check entries :=
  fun entries entries' unambiguous respelled =>
    (alike entries entries' unambiguous respelled).map change

theorem seq {first : Json.Entries → Checked (α → β)} {second : Json.Entries → Checked α}
    (alike : ChecksAlike names first) (alike' : ChecksAlike names second) :
    ChecksAlike names fun entries => first entries <*> second entries :=
  fun entries entries' unambiguous respelled =>
    (alike entries entries' unambiguous respelled).seq
      (alike' entries entries' unambiguous respelled)

/-- A record reads alike if its fields are checked alike. -/
theorem readRecord {record : String} {fields : Json.Entries → Checked α}
    (alike : ChecksAlike names fields) : IgnoresSpelling names (readRecord record fields) := by
  intro document document' unambiguous respelled
  cases respelled with
  | object each => exact alike _ _ unambiguous (.object each)
  | null => exact .refuse (.notRecord record)
  | bool => exact .refuse (.notRecord record)
  | number => exact .refuse (.notRecord record)
  | string => exact .refuse (.notRecord record)
  | array => exact .refuse (.notRecord record)

end ChecksAlike

end Montage.Schema
