import Mathlib.Data.List.Induction
import Mathlib.Data.List.Nodup
import Montage.Inputs

/-!
# Numbers of inputs

A film uses the assets that its items name, as far as they are texts or have files. The numbering
goes from item to item and keeps one invariant: the used assets, the sources and the files all tell
of the ids met so far that can be used, each once and where it first occurred. So an asset that is
no text is numbered with the position of its file in the list of inputs.
-/

namespace Montage

/-! ## Assets -/

/-- The asset that counts for an id: of the assets with that id the last. -/
def assetOf? (assets : List MediaItem) (id : String) : Option MediaItem :=
  assets.reverse.find? (·.id == id)

/-- A library finds the assets that count. -/
theorem Library.find?_ofList (assets : List MediaItem) (id : String) :
    (Library.ofList assets).find? id = assetOf? assets id := by
  rw [Library.ofList, Table.find?_ofEntries, ← List.map_reverse, Table.find?, List.find?_map,
    Option.map_map]
  exact Option.map_id' ..

/-- An asset of a library bears the id under which it is found. -/
theorem Library.id_of_find? {assets : List MediaItem} {id : String} {media : MediaItem}
    (found : (Library.ofList assets).find? id = some media) : media ∈ assets ∧ media.id = id := by
  rw [Library.find?_ofList] at found
  constructor
  · exact List.mem_reverse.mp (List.mem_of_find?_eq_some found)
  · simpa using List.find?_some found

namespace MediaItem

variable {root : String} {isFile : String → Bool} {media : MediaItem}

/-- An asset names a file that is there. A path into the memory of a browser names none. -/
def HasFile (root : String) (isFile : String → Bool) (media : MediaItem) : Prop :=
  media.filePath ≠ "" ∧ ¬"blob:".toList <+: media.filePath.toList ∧
    isFile (mediaPath media.filePath root) = true

instance : Decidable (media.HasFile root isFile) :=
  inferInstanceAs (Decidable (_ ∧ _))

/-- A film can use an asset that is a text, and one that has a file. -/
def Usable (root : String) (isFile : String → Bool) (media : MediaItem) : Prop :=
  media.kind = .text ∨ media.HasFile root isFile

instance : Decidable (media.Usable root isFile) :=
  inferInstanceAs (Decidable (_ ∨ _))

/-- The file of an asset that has one lies at the path of the asset. -/
theorem file?_eq (media : MediaItem) (root : String) (isFile : String → Bool) :
    media.file? root isFile =
      if media.HasFile root isFile then some (mediaPath media.filePath root) else none := by
  simp only [file?, HasFile, ne_eq, ← String.isEmpty_iff, ← List.isPrefixOf_iff_prefix]
  split
  next elsewhere =>
    rw [if_neg]
    rintro ⟨named, outside, -⟩
    rw [Bool.or_eq_true] at elsewhere
    exact elsewhere.elim named outside
  next here =>
    rw [Bool.or_eq_true, not_or] at here
    simp only [here.1, here.2, not_false_eq_true, true_and, Bool.false_eq_true]

end MediaItem

namespace Inputs

variable {assets : List MediaItem} {root : String} {isFile : String → Bool} {inputs : Inputs}
variable {ids : List String} {media : MediaItem} {item : TimelineItem}

/-! ## One item -/

/-- The inputs with one more asset. -/
def accept (root : String) (inputs : Inputs) (media : MediaItem) : Inputs :=
  { inputs with
    used := inputs.used ++ [media]
    sources := inputs.sources.insert media.id
      (if media.kind = .text then .drawn else .input inputs.files.length)
    files := if media.kind = .text then inputs.files
      else inputs.files ++ [mediaPath media.filePath root] }

theorem addItem_of_missing (missing : inputs.library.find? item.mediaId = none) :
    addItem root isFile inputs item = inputs := by
  rw [addItem, missing]

/-- The asset of an item is accepted if it is new and a film can use it. -/
theorem addItem_of_found (found : inputs.library.find? item.mediaId = some media) :
    addItem root isFile inputs item =
      if inputs.sources.has media.id = false ∧ media.Usable root isFile then
        inputs.accept root media
      else inputs := by
  rw [addItem, found]
  by_cases known : inputs.sources.has media.id = true
  · simp [known]
  · rw [Bool.not_eq_true] at known
    simp only [known, MediaItem.file?_eq, MediaItem.Usable, accept]
    by_cases text : media.kind = .text
    · simp [text]
    · by_cases file : media.HasFile root isFile
      · simp [text, file]
      · simp [text, file]

/-- The used assets that are read from files. -/
def filed (inputs : Inputs) : List MediaItem :=
  inputs.used.filter fun media => media.kind ≠ .text

/-- The inputs number the assets of some ids, all of them and no others, in the order of the ids.
A text takes no file, and every other asset the next one. -/
structure Numbers (assets : List MediaItem) (root : String) (ids : List String)
    (inputs : Inputs) : Prop where
  distinct : ids.Nodup
  library : inputs.library = Library.ofList assets
  used : inputs.used.map (·.id) = ids
  known : ∀ media ∈ inputs.used, assetOf? assets media.id = some media
  keys : inputs.sources.map (·.1) = ids
  drawn : ∀ media ∈ inputs.used, media.kind = .text →
    inputs.sources.find? media.id = some .drawn
  numbered : ∀ (position : Nat) (media : MediaItem), inputs.filed[position]? = some media →
    inputs.sources.find? media.id = some (.input position)
  files : inputs.files = inputs.filed.map fun media => mediaPath media.filePath root

theorem numbers_start (assets : List MediaItem) (root : String) :
    Numbers assets root [] { library := Library.ofList assets } := by
  constructor
  all_goals simp [filed]

/-- A new asset keeps the numbers of those before it. -/
theorem Numbers.accept (numbers : inputs.Numbers assets root ids) (anew : media.id ∉ ids)
    (found : assetOf? assets media.id = some media) :
    (inputs.accept root media).Numbers assets root (ids ++ [media.id]) := by
  have missing : inputs.sources.has media.id = false := by
    rw [← Bool.not_eq_true, Table.has_iff_mem_keys, numbers.keys]
    exact anew
  have earlier : ∀ asset ∈ inputs.used,
      (inputs.accept root media).sources.find? asset.id = inputs.sources.find? asset.id := by
    intro asset member
    have other : media.id ≠ asset.id := by
      intro same
      rw [same, ← numbers.used] at anew
      exact anew (List.mem_map_of_mem member)
    exact (Table.find?_insert _ _ _ _).trans (if_neg other)
  have itself : (inputs.accept root media).sources.find? media.id =
      some (if media.kind = .text then .drawn else .input inputs.files.length) :=
    (Table.find?_insert _ _ _ _).trans (if_pos rfl)
  have filed : (inputs.accept root media).filed =
      if media.kind = .text then inputs.filed else inputs.filed ++ [media] := by
    split
    next text => simp [Inputs.filed, Inputs.accept, text]
    next file => simp [Inputs.filed, Inputs.accept, file]
  constructor
  · exact numbers.distinct.append (List.nodup_singleton _) (by simpa using anew)
  · exact numbers.library
  · rw [Inputs.accept, List.map_append, numbers.used, List.map_singleton]
  · simp only [Inputs.accept, List.mem_append, List.mem_singleton]
    rintro asset (member | rfl)
    · exact numbers.known asset member
    · exact found
  · rw [Inputs.accept, Table.insert_of_not_has missing, List.map_append, numbers.keys,
      List.map_singleton]
  · simp only [Inputs.accept, List.mem_append, List.mem_singleton]
    rintro asset (member | rfl) text
    · exact (earlier asset member).trans (numbers.drawn asset member text)
    · exact itself.trans (by rw [if_pos text])
  · rw [filed]
    intro position asset listed
    split at listed
    next text =>
      have member := List.mem_of_mem_filter (List.mem_of_getElem? listed)
      exact (earlier asset member).trans (numbers.numbered position asset listed)
    next file =>
      rcases Nat.lt_or_ge position inputs.filed.length with within | beyond
      · rw [List.getElem?_append_left within] at listed
        have member := List.mem_of_mem_filter (List.mem_of_getElem? listed)
        exact (earlier asset member).trans (numbers.numbered position asset listed)
      · rw [List.getElem?_append_right beyond, List.getElem?_singleton] at listed
        split at listed
        next last =>
          cases listed
          have count : inputs.files.length = position := by
            rw [numbers.files, List.length_map]
            omega
          rw [itself, if_neg file, count]
        next => contradiction
  · rw [filed]
    simp only [Inputs.accept]
    split
    next text => exact numbers.files
    next file => rw [numbers.files, List.map_append, List.map_singleton]

/-! ## All items -/

/-- The ids of items whose assets a film can use, each where it first occurs. -/
def usableIds (assets : List MediaItem) (root : String) (isFile : String → Bool)
    (items : List TimelineItem) : List String :=
  ((items.map (·.mediaId)).filter fun id =>
    ∃ media ∈ assetOf? assets id, media.Usable root isFile).eraseDups

/-- Of repeated ids the first stays, so a last one is dropped if it is there already. -/
theorem eraseDups_append_singleton (ids : List String) (id : String) :
    (ids ++ [id]).eraseDups = if id ∈ ids then ids.eraseDups else ids.eraseDups ++ [id] := by
  rw [List.eraseDups_append, List.removeAll, List.filter_singleton]
  by_cases known : id ∈ ids
  · simp [known]
  · simp [known, List.eraseDups_cons]

/-- One more item adds its id if a film can use its asset and has not met it. -/
theorem usableIds_append_singleton (assets : List MediaItem) (root : String)
    (isFile : String → Bool) (items : List TimelineItem) (item : TimelineItem) :
    usableIds assets root isFile (items ++ [item]) =
      if (∃ media ∈ assetOf? assets item.mediaId, media.Usable root isFile) ∧
          item.mediaId ∉ usableIds assets root isFile items then
        usableIds assets root isFile items ++ [item.mediaId]
      else usableIds assets root isFile items := by
  simp only [usableIds, List.map_append, List.filter_append, List.map_singleton,
    List.filter_singleton, List.mem_eraseDups]
  by_cases usable : ∃ media ∈ assetOf? assets item.mediaId, media.Usable root isFile
  · rw [decide_eq_true usable, cond_true, eraseDups_append_singleton]
    simp only [usable, true_and, ite_not]
  · rw [decide_eq_false usable, cond_false, List.append_nil]
    simp only [usable, false_and, if_false]

/-- Going through items numbers what a film can use of them. -/
theorem numbers_foldl (assets : List MediaItem) (root : String) (isFile : String → Bool)
    (items : List TimelineItem) :
    Numbers assets root (usableIds assets root isFile items)
      (items.foldl (addItem root isFile) { library := Library.ofList assets }) := by
  induction items using List.reverseRecOn with
  | nil => exact numbers_start assets root
  | append_singleton items item ih =>
      rw [List.foldl_append, List.foldl_cons, List.foldl_nil, usableIds_append_singleton]
      generalize items.foldl (addItem root isFile) { library := Library.ofList assets } = inputs
        at ih ⊢
      have looked : inputs.library.find? item.mediaId = assetOf? assets item.mediaId := by
        rw [ih.library, Library.find?_ofList]
      match found : assetOf? assets item.mediaId with
      | none =>
          rw [addItem_of_missing (looked.trans found), if_neg (by simp)]
          exact ih
      | some media =>
          have named : media.id = item.mediaId := by
            simpa using List.find?_some found
          have known : inputs.sources.has media.id = false ↔
              item.mediaId ∉ usableIds assets root isFile items := by
            rw [← Bool.not_eq_true, Table.has_iff_mem_keys, ih.keys, named]
          rw [addItem_of_found (looked.trans found)]
          by_cases accepted : inputs.sources.has media.id = false ∧ media.Usable root isFile
          · rw [if_pos accepted, if_pos ⟨⟨media, rfl, accepted.2⟩, known.mp accepted.1⟩, ← named]
            exact ih.accept (named ▸ known.mp accepted.1) (named ▸ found)
          · rw [if_neg accepted, if_neg]
            · exact ih
            · rintro ⟨⟨asset, same, usable⟩, anew⟩
              cases same
              exact accepted ⟨known.mpr anew, usable⟩

/-- A film without a usable asset is refused. Of every other film the usable assets are numbered,
and no others. -/
theorem numbers_ofTimeline (layers : List Layer) (assets : List MediaItem) (root : String)
    (isFile : String → Bool) :
    (usableIds assets root isFile (visibleItems layers) = [] ∧
      ofTimeline layers assets root isFile =
        .error (Failure.invalidInput "No valid media items found")) ∨
    usableIds assets root isFile (visibleItems layers) ≠ [] ∧
      ∃ inputs, ofTimeline layers assets root isFile = .ok inputs ∧
        inputs.Numbers assets root (usableIds assets root isFile (visibleItems layers)) := by
  have numbers := numbers_foldl assets root isFile (visibleItems layers)
  change Numbers assets root _ (collect layers assets root isFile) at numbers
  have unused : (collect layers assets root isFile).used.isEmpty = true ↔
      usableIds assets root isFile (visibleItems layers) = [] := by
    rw [List.isEmpty_iff, ← numbers.used, List.map_eq_nil_iff]
  simp only [ofTimeline]
  by_cases none : usableIds assets root isFile (visibleItems layers) = []
  · left
    rw [if_pos (unused.mpr none)]
    exact ⟨none, rfl⟩
  · right
    rw [if_neg (unused.not.mpr none)]
    exact ⟨none, _, rfl, numbers⟩

/-! ## Positions -/

/-- An id with a number is the id of an asset that is no text, and the number is the position of
the file of that asset. -/
def Numbered (root : String) (inputs : Inputs) : Prop :=
  ∀ id position, inputs.sources.find? id = some (.input position) →
    ∃ media : MediaItem, ∃ index : Nat,
      inputs.library.find? id = some media ∧ media.kind ≠ .text ∧ position = index ∧
        inputs.files[index]? = some (mediaPath media.filePath root)

theorem Numbers.positions (numbers : inputs.Numbers assets root ids) : inputs.Numbered root := by
  intro id position source
  have listed : id ∈ ids := by
    rw [← numbers.keys, ← Table.has_iff_mem_keys, Table.has_eq_isSome, source]
    rfl
  rw [← numbers.used] at listed
  obtain ⟨media, member, rfl⟩ := List.mem_map.mp listed
  have notText : media.kind ≠ .text := by
    intro text
    rw [numbers.drawn media member text] at source
    cases source
  obtain ⟨index, filed⟩ : ∃ index, inputs.filed[index]? = some media := by
    apply List.mem_iff_getElem?.mp
    exact List.mem_filter.mpr ⟨member, by simpa using notText⟩
  rw [numbers.numbered index media filed] at source
  cases source
  refine ⟨media, index, ?_, notText, rfl, ?_⟩
  · rw [numbers.library, Library.find?_ofList]
    exact numbers.known media member
  · rw [numbers.files, List.getElem?_map, filed]
    rfl

/-- The numbers of all items of a film are positions of their files. -/
theorem numbered_collect (layers : List Layer) (assets : List MediaItem) (root : String)
    (isFile : String → Bool) :
    (collect layers assets root isFile).Numbered root ∧
      (collect layers assets root isFile).library = Library.ofList assets := by
  have numbers := numbers_foldl assets root isFile (visibleItems layers)
  exact ⟨numbers.positions, numbers.library⟩

end Inputs

end Montage
