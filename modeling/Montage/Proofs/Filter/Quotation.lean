import Mathlib

/-!
# Reading scripts

How the renderer reads a script, as far as quotes, statements and labels go. What stands between
single quotes is literal. Outside them a semicolon ends a statement, and square brackets enclose a
label.

A text that closes its quotes can be joined to others without a change of what either means.
-/

namespace Montage.Filter

/-! ## Readers -/

/-- Whether a reader is between quotes behind a text. -/
def quotedAfter : Bool → List Char → Bool
  | quoted, [] => quoted
  | quoted, character :: rest =>
      if character = '\'' then quotedAfter (!quoted) rest else quotedAfter quoted rest

/-- What stands outside quotes. -/
def unquoted : Bool → List Char → List Char
  | _, [] => []
  | quoted, character :: rest =>
      if character = '\'' then unquoted (!quoted) rest
      else if quoted then unquoted quoted rest
      else character :: unquoted quoted rest

/-- The parts of a text between semicolons outside quotes. -/
def splitStatements : Bool → List Char → List (List Char)
  | _, [] => [[]]
  | quoted, character :: rest =>
      if character = '\'' then (splitStatements (!quoted) rest).modifyHead (character :: ·)
      else if quoted = false ∧ character = ';' then [] :: splitStatements quoted rest
      else (splitStatements quoted rest).modifyHead (character :: ·)

/-- The statements of a script. Each holds the blanks that stand in front of it. -/
def readStatements (script : String) : List (List Char) :=
  splitStatements false script.toList

/-- The labels between square brackets in a text without quotes. The characters of a label that
is open come first. -/
def enclosedLabels : Option (List Char) → List Char → List String
  | _, [] => []
  | none, character :: rest =>
      if character = '[' then enclosedLabels (some []) rest else enclosedLabels none rest
  | some name, character :: rest =>
      if character = ']' then String.ofList name :: enclosedLabels none rest
      else enclosedLabels (some (name ++ [character])) rest

/-- The labels of a statement. -/
def statementLabels (statement : List Char) : List String :=
  enclosedLabels none (unquoted false statement)

/-! ## Joined texts -/

variable {quoted : Bool} {text more : List Char}

theorem quotedAfter_append :
    quotedAfter quoted (text ++ more) = quotedAfter (quotedAfter quoted text) more := by
  fun_induction quotedAfter quoted text with
  | case1 quoted => rfl
  | case2 quoted rest ih => simpa [quotedAfter] using ih
  | case3 quoted character rest plain ih => simpa [quotedAfter, plain] using ih

theorem unquoted_append :
    unquoted quoted (text ++ more) =
      unquoted quoted text ++ unquoted (quotedAfter quoted text) more := by
  fun_induction unquoted quoted text with
  | case1 quoted => rfl
  | case2 quoted rest ih => simpa [unquoted, quotedAfter] using ih
  | case3 character rest plain ih => simpa [unquoted, quotedAfter, plain] using ih
  | case4 quoted character rest plain outside ih =>
      simpa [unquoted, quotedAfter, plain, outside] using ih

/-- A text without a semicolon outside quotes belongs to the first statement. -/
theorem splitStatements_append (whole : ';' ∉ unquoted quoted text) :
    splitStatements quoted (text ++ more) =
      (splitStatements (quotedAfter quoted text) more).modifyHead (text ++ ·) := by
  fun_induction unquoted quoted text with
  | case1 quoted => exact (congrFun List.modifyHead_id _).symm
  | case2 quoted rest ih =>
      simp [splitStatements, quotedAfter, ih whole, List.modifyHead_modifyHead, Function.comp_def]
  | case3 character rest plain ih =>
      simp [splitStatements, quotedAfter, plain, ih whole, List.modifyHead_modifyHead,
        Function.comp_def]
  | case4 quoted character rest plain outside ih =>
      obtain ⟨other, whole⟩ := not_or.mp (List.mem_cons.not.mp whole)
      obtain rfl : quoted = false := by simpa using outside
      simp [splitStatements, quotedAfter, plain, Ne.symm other, ih whole,
        List.modifyHead_modifyHead, Function.comp_def]

/-! ## Labels -/

theorem enclosedLabels_append (plain : '[' ∉ text) :
    enclosedLabels none (text ++ more) = enclosedLabels none more := by
  induction text with
  | nil => rfl
  | cons character rest ih =>
      obtain ⟨other, plain⟩ := not_or.mp (List.mem_cons.not.mp plain)
      rw [List.cons_append, enclosedLabels, if_neg (Ne.symm other)]
      exact ih plain

/-- A label that is open ends at the next closing bracket. -/
theorem enclosedLabels_some_append (name : List Char) (plain : ']' ∉ text) :
    enclosedLabels (some name) (text ++ ']' :: more) =
      String.ofList (name ++ text) :: enclosedLabels none more := by
  induction text generalizing name with
  | nil => rw [List.nil_append, enclosedLabels, if_pos rfl, List.append_nil]
  | cons character rest ih =>
      obtain ⟨other, plain⟩ := not_or.mp (List.mem_cons.not.mp plain)
      rw [List.cons_append, enclosedLabels, if_neg (Ne.symm other), ih _ plain, List.append_assoc]
      rfl

/-! ## Closed texts -/

/-- A text that closes its quotes and holds none of the reserved characters outside them. -/
structure Closed (reserved text : List Char) : Prop where
  closes : quotedAfter false text = false
  free : ∀ character ∈ unquoted false text, character ∉ reserved

instance (reserved text : List Char) : Decidable (Closed reserved text) :=
  decidable_of_iff
    (quotedAfter false text = false ∧ (unquoted false text).all (!reserved.contains ·) = true)
    ⟨fun parts => ⟨parts.1, by simpa using parts.2⟩,
      fun closed => ⟨closed.closes, by simpa using closed.free⟩⟩

/-- A text without quotes stands outside quotes altogether. -/
theorem reading_of_plain (quoted : Bool) (plain : '\'' ∉ text) :
    quotedAfter quoted text = quoted ∧ unquoted quoted text = if quoted then [] else text := by
  induction text with
  | nil => cases quoted <;> exact ⟨rfl, rfl⟩
  | cons character rest ih =>
      obtain ⟨other, plain⟩ := not_or.mp (List.mem_cons.not.mp plain)
      obtain ⟨after, outside⟩ := ih plain
      cases quoted <;> simp_all [quotedAfter, unquoted, Ne.symm other]

namespace Closed

variable {reserved : List Char}

theorem append (left : Closed reserved text) (right : Closed reserved more) :
    Closed reserved (text ++ more) := by
  constructor
  · rw [quotedAfter_append, left.closes, right.closes]
  · rw [unquoted_append, left.closes]
    exact List.forall_mem_append.mpr ⟨left.free, right.free⟩

theorem mono {other : List Char} (closed : Closed reserved text) (fewer : other ⊆ reserved) :
    Closed other text :=
  ⟨closed.closes, fun character outside kept => closed.free character outside (fewer kept)⟩

/-- What stands behind a closed text is read on its own. -/
theorem read_append (closed : Closed reserved text) :
    unquoted false (text ++ more) = unquoted false text ++ unquoted false more := by
  rw [unquoted_append, closed.closes]

/-- A text of other characters. -/
theorem of_plain (plain : ∀ character ∈ text, character ≠ '\'' ∧ character ∉ reserved) :
    Closed reserved text := by
  obtain ⟨after, outside⟩ :=
    reading_of_plain false fun quote => (plain '\'' quote).1 rfl
  refine ⟨after, ?_⟩
  rw [outside]
  exact fun character member => (plain character member).2

/-- Between quotes any characters but quotes may stand. -/
theorem of_quoted (plain : '\'' ∉ text) : Closed reserved ('\'' :: text ++ ['\'']) := by
  obtain ⟨after, outside⟩ := reading_of_plain true plain
  constructor
  · rw [List.cons_append, quotedAfter, if_pos rfl, quotedAfter_append, Bool.not_false, after]
    rfl
  · rw [List.cons_append, unquoted, if_pos rfl, unquoted_append, Bool.not_false, after, outside]
    exact fun character member => absurd member List.not_mem_nil

theorem intercalate {gap : List Char} {parts : List (List Char)} (between : Closed reserved gap)
    (closed : ∀ part ∈ parts, Closed reserved part) : Closed reserved (gap.intercalate parts) := by
  induction parts with
  | nil => exact ⟨rfl, by simp [unquoted]⟩
  | cons first rest ih =>
      obtain ⟨head, tail⟩ := List.forall_mem_cons.mp closed
      cases rest with
      | nil =>
          rw [List.intercalate_singleton]
          exact head
      | cons next more =>
          rw [List.intercalate_cons_cons]
          exact (head.append between).append (ih tail)

end Closed

/-! ## Scripts of closed statements -/

/-- A separator ends a closed statement. -/
theorem splitStatements_closed_append (closed : Closed [';'] text) :
    splitStatements false (text ++ ';' :: more) = text :: splitStatements false more := by
  have whole : ';' ∉ unquoted false text := fun mark => closed.free _ mark List.mem_cons_self
  have next : splitStatements false (';' :: more) = [] :: splitStatements false more := by
    simp [splitStatements]
  rw [splitStatements_append whole, closed.closes, next, List.modifyHead_cons, List.append_nil]

/-- A script of closed statements splits into them. The line feeds between them remain. -/
theorem splitStatements_intercalate (first : List Char) (rest : List (List Char))
    (closed : ∀ statement ∈ first :: rest, Closed [';'] statement) :
    splitStatements false ([';', '\n'].intercalate (first :: rest)) =
      first :: rest.map ('\n' :: ·) := by
  induction rest generalizing first with
  | nil =>
      have whole : ';' ∉ unquoted false first :=
        fun mark => (closed first List.mem_cons_self).free _ mark List.mem_cons_self
      rw [List.intercalate_singleton, ← List.append_nil first, splitStatements_append whole,
        (closed first List.mem_cons_self).closes]
      rfl
  | cons next more ih =>
      obtain ⟨head, tail⟩ := List.forall_mem_cons.mp closed
      have feed (text : List Char) : splitStatements false ('\n' :: text) =
          (splitStatements false text).modifyHead ('\n' :: ·) := by simp [splitStatements]
      -- The semicolon ends the first statement, and the line feed opens the next one.
      rw [List.intercalate_cons_cons, List.append_assoc, List.cons_append,
        splitStatements_closed_append head, List.cons_append, List.nil_append, feed, ih next tail]
      rfl

end Montage.Filter
