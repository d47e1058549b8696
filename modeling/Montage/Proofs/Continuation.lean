import Montage.Proofs.Filter.Dependence
import Montage.Proofs.Filter.Painting
import Montage.Proofs.Job

/-!
# Films that go on

Items and layers that are added at the end of a timeline leave what stands before them as it is.
Both passes over the items go from one to the next, and what they do for an item depends on the
items before it only. So the inputs keep their numbers, and the stages and the branches of sound of
the shorter film begin those of the longer one. Only the mix at the end changes.
-/

namespace Montage

open Montage.Filter

/-! ## Timelines with more at the end -/

/-- Layers that go on where others end: more items stand in the last visible layer, and behind it
any layers. Where hidden layers stood there, they may stay. -/
inductive Prolongs : List Layer → List Layer → Prop where
  | intro (front : List Layer) {last : Layer} {hidden : List Layer} (seen : last.visible = true)
      (unseen : ∀ layer ∈ hidden, layer.visible = false) (more : List TimelineItem)
      (behind : List Layer) :
      Prolongs (front ++ last :: hidden)
        (front ++ { last with items := last.items ++ more } :: behind)

variable {layers longer : List Layer}

/-- The items of layers that go on are the first ones, with the same tags. -/
theorem Prolongs.taggedItems (prolongs : Prolongs layers longer) :
    taggedItems layers <+: taggedItems longer := by
  cases prolongs with
  | @intro front last hidden seen unseen more behind =>
      have none : hidden.filter (·.visible) = [] := by
        rw [List.filter_eq_nil_iff]
        intro layer member
        simp [unseen layer member]
      simp only [Filter.taggedItems, List.filter_append, List.filter_cons, seen, ↓reduceIte, none,
        List.zipIdx_append, List.flatMap_append, List.zipIdx_cons, List.zipIdx_nil,
        List.flatMap_cons, List.flatMap_nil, List.append_nil, List.map_append, List.append_assoc]
      rw [List.prefix_append_right_inj]
      exact List.prefix_append _ _

/-- The items of layers that go on are the first ones. -/
theorem Prolongs.visibleItems (prolongs : Prolongs layers longer) :
    Inputs.visibleItems layers <+: Inputs.visibleItems longer := by
  rw [Inputs.visibleItems, Inputs.visibleItems, ← map_fst_taggedItems, ← map_fst_taggedItems]
  exact prolongs.taggedItems.map _

/-! ## Inputs -/

namespace Inputs

variable {root : String} {isFile : String → Bool} {inputs next : Inputs} {assets : List MediaItem}
variable {item : TimelineItem} {items : List TimelineItem} {id : String}

/-- Inputs that others begin with: files and numbers stay as they are. -/
structure Begins (inputs next : Inputs) : Prop where
  files : inputs.files <+: next.files
  sources : ∀ id source, inputs.sources.find? id = some source →
    next.sources.find? id = some source

theorem Begins.refl (inputs : Inputs) : inputs.Begins inputs where
  files := List.prefix_rfl
  sources := fun _ _ known => known

theorem Begins.trans {last : Inputs} (first : inputs.Begins next) (second : next.Begins last) :
    inputs.Begins last where
  files := first.files.trans second.files
  sources := fun id source known => second.sources id source (first.sources id source known)

theorem begins_accept {media : MediaItem} (anew : inputs.sources.has media.id = false) :
    inputs.Begins (inputs.accept root media) where
  files := by
    simp only [accept]
    split
    · exact List.prefix_rfl
    · exact List.prefix_append _ _
  sources := by
    intro id source known
    have other : media.id ≠ id := by
      rintro rfl
      rw [Table.has_eq_isSome, known] at anew
      contradiction
    exact (Table.find?_insert _ _ _ _).trans ((if_neg other).trans known)

theorem begins_addItem (inputs : Inputs) (item : TimelineItem) :
    inputs.Begins (addItem root isFile inputs item) := by
  cases found : inputs.library.find? item.mediaId with
  | none =>
      rw [addItem_of_missing found]
      exact .refl inputs
  | some media =>
      rw [addItem_of_found found]
      split
      next accepted => exact begins_accept accepted.1
      next => exact .refl inputs

theorem begins_foldl (inputs : Inputs) (items : List TimelineItem) :
    inputs.Begins (items.foldl (addItem root isFile) inputs) := by
  induction items generalizing inputs with
  | nil => exact .refl inputs
  | cons item rest ih => exact (begins_addItem inputs item).trans (ih _)

/-- The inputs of layers that go on begin with those of the layers. -/
theorem begins_collect (prolongs : Prolongs layers longer) :
    (collect layers assets root isFile).Begins (collect longer assets root isFile) := by
  obtain ⟨more, items⟩ := prolongs.visibleItems
  rw [collect, collect, ← items, List.foldl_append]
  exact begins_foldl _ _

theorem mem_usableIds : id ∈ usableIds assets root isFile items ↔
    id ∈ items.map (·.mediaId) ∧ ∃ media ∈ assetOf? assets id, media.Usable root isFile := by
  rw [usableIds, List.mem_eraseDups, List.mem_filter, decide_eq_true_eq]

/-- The source of an asset that an item names is settled with that item. -/
theorem find?_sources_collect (prolongs : Prolongs layers longer)
    (item : TimelineItem) (member : item ∈ visibleItems layers) :
    (collect layers assets root isFile).sources.find? item.mediaId =
      (collect longer assets root isFile).sources.find? item.mediaId := by
  cases known : (collect layers assets root isFile).sources.find? item.mediaId with
  | some source => exact ((begins_collect prolongs).sources _ _ known).symm
  | none =>
      have keys := (numbers_foldl assets root isFile (visibleItems layers)).keys
      have keys' := (numbers_foldl assets root isFile (visibleItems longer)).keys
      rw [eq_comm, ← Option.isNone_iff_eq_none, ← Option.not_isSome, ← Table.has_eq_isSome,
        Bool.not_eq_true', ← Bool.not_eq_true, Table.has_iff_mem_keys]
      intro later
      rw [collect, keys', mem_usableIds] at later
      have earlier : item.mediaId ∈ usableIds assets root isFile (visibleItems layers) :=
        mem_usableIds.mpr ⟨List.mem_map_of_mem member, later.2⟩
      rw [← keys, ← Table.has_iff_mem_keys, Table.has_eq_isSome] at earlier
      change ((collect layers assets root isFile).sources.find? item.mediaId).isSome = true
        at earlier
      rw [known] at earlier
      contradiction

end Inputs

/-! ## Graphs -/

namespace Filter

variable {context context' : Context} {item : TimelineItem} {tag : String} {draft next : Draft}
variable {items : List (TimelineItem × String)} {graph graph' : Graph} {mix : Mix}

/-- The stages of a graph without the mix of its sounds. -/
def Graph.unmixed (graph : Graph) : List Stage :=
  match graph.stages.getLast? with
  | some (.mix _) => graph.stages.dropLast
  | _ => graph.stages

/-- Items add no mix. -/
theorem Adds.ne_mix {stage : Stage} (adds : Adds context item tag draft stage) :
    stage ≠ .mix mix := by
  rintro rfl
  cases adds with
  | sound _ _ _ _ chained => cases soundStage_of_mem_chainSteps chained

theorem mix_not_mem_of_addItems
    (compiled : addItems context items (Draft.start context) = .ok draft) :
    .mix mix ∉ draft.stages := by
  intro member
  rcases compiledFor_of_addItems [] rfl compiled member with matte | ⟨item, compiledFor⟩
  · cases List.mem_singleton.mp matte
  · obtain ⟨tag, before, adds⟩ := compiledFor.adds
    exact adds.ne_mix rfl

theorem Graph.unmixed_eq (last : ∀ mix, graph.stages.getLast? ≠ some (.mix mix)) :
    graph.unmixed = graph.stages := by
  rw [Graph.unmixed]
  split
  next mix mixed => exact absurd mixed (last mix)
  next => rfl

/-- Without the mix a graph has the stages of its items. -/
theorem unmixed_finish (compiled : addItems context items (Draft.start context) = .ok draft) :
    draft.finish.unmixed = draft.stages := by
  have last : ∀ mix, draft.stages.getLast? ≠ some (.mix mix) := fun mix mixed =>
    mix_not_mem_of_addItems compiled (List.mem_of_getLast? mixed)
  match branches : draft.audioBranches with
  | [] =>
      have stages : draft.finish.stages = draft.stages := by simp [Draft.finish, branches]
      rw [Graph.unmixed_eq (stages ▸ last), stages]
  | [branch] =>
      have stages : draft.finish.stages = draft.stages := by simp [Draft.finish, branches]
      rw [Graph.unmixed_eq (stages ▸ last), stages]
  | first :: second :: rest => simp [Draft.finish, branches, Graph.unmixed]

theorem Addition.audioBranches_grow (addition : Addition context item tag draft next) :
    draft.audioBranches <+: next.audioBranches := by
  cases addition with
  | skip | image | video | text | boxedText => exact List.prefix_rfl
  | sound => exact List.prefix_append _ _

/-- Items add branches of sound behind those that are there. -/
theorem audioBranches_grow_of_addItems (compiled : addItems context items draft = .ok next) :
    draft.audioBranches <+: next.audioBranches := by
  induction items generalizing draft with
  | nil =>
      cases compiled
      exact List.prefix_rfl
  | cons entry rest ih =>
      obtain ⟨middle, added, compiled⟩ := bind_eq_ok.mp compiled
      exact (addition_of_addItem added).audioBranches_grow.trans (ih compiled)

/-- The graph of layers that go on begins with that of the layers, in contexts that agree on
these. -/
theorem Graph.prefix_of_prolongs (prolongs : Prolongs layers longer)
    (agrees : ∀ item ∈ Inputs.visibleItems layers, context.AgreesOn context' item.mediaId)
    (start : Draft.start context = Draft.start context')
    (compiled : Graph.ofLayers context layers = .ok graph)
    (compiled' : Graph.ofLayers context' longer = .ok graph') :
    graph.unmixed <+: graph'.stages ∧ graph.audioBranches <+: graph'.audioBranches := by
  obtain ⟨draft, items, equal⟩ := bind_eq_ok.mp compiled
  cases equal
  obtain ⟨draft', items', equal⟩ := bind_eq_ok.mp compiled'
  cases equal
  obtain ⟨more, tagged⟩ := prolongs.taggedItems
  rw [← tagged, addItems_append_eq_ok] at items'
  obtain ⟨middle, reached, rest⟩ := items'
  have alike : ∀ entry ∈ taggedItems layers, context.AgreesOn context' entry.1.mediaId :=
    fun entry member => agrees entry.1 (mem_visibleItems_of_tagged member)
  rw [← start, ← addItems_eq_of_agreesOn alike, items] at reached
  cases reached
  constructor
  · rw [unmixed_finish items]
    exact (stages_grow_of_addItems rest).trans (List.prefix_append _ _)
  · exact audioBranches_grow_of_addItems rest

end Filter

/-! ## Jobs -/

namespace RenderJob

variable {workplace : Workplace} {payload : RenderPayload} {film film' : FilmPath}
variable {job job' : RenderJob}

/-- A job that another one begins with. -/
structure Begins (job job' : RenderJob) : Prop where
  files : job.inputs.files <+: job'.inputs.files
  /-- Every id with a number, or with the mark of an asset without a file, keeps it. -/
  sources : ∀ id source, job.inputs.sources.find? id = some source →
    job'.inputs.sources.find? id = some source
  stages : job.graph.unmixed <+: job'.graph.stages
  audioBranches : job.graph.audioBranches <+: job'.graph.audioBranches

/-- The job of a payload begins that of the payload with more at the end of its timeline. -/
theorem begins_of_prolongs (prolongs : Prolongs payload.layers longer)
    (prepared : prepare workplace payload film = .ok job)
    (prepared' : prepare workplace { payload with layers := longer } film' = .ok job') :
    job.Begins job' := by
  obtain ⟨collected, compiled⟩ := parts_of_prepare prepared
  obtain ⟨collected', compiled'⟩ := parts_of_prepare prepared'
  have inputs : job.inputs.Begins job'.inputs := by
    rw [collected, collected']
    exact Inputs.begins_collect prolongs
  have library := library_of_prepare prepared
  have library' := library_of_prepare prepared'
  have agrees : ∀ item ∈ Inputs.visibleItems payload.layers,
      (context workplace payload job.inputs).AgreesOn
        (context workplace { payload with layers := longer } job'.inputs) item.mediaId := by
    intro item member
    refine ⟨rfl, rfl, rfl, rfl, ?_, ?_⟩
    · simp only [context, library, library']
    · intro media found
      simp only [context, library] at found
      rw [(Library.id_of_find? found).2]
      simp only [context, collected, collected']
      exact Inputs.find?_sources_collect prolongs item member
  obtain ⟨stages, branches⟩ := Graph.prefix_of_prolongs prolongs agrees rfl compiled compiled'
  exact ⟨inputs.files, inputs.sources, stages, branches⟩

/-- The sample layers in front of a hidden one. -/
def concertPayload : RenderPayload where
  layers := sampleLayers ++ [sampleLayer false [sampleItem "unused" 0]]
  mediaLibrary := sampleAssets
  timeline := { totalDuration := some 12 }
  editorSettings := { videoStyle := none }

/-- The layers of that payload with more music in the last visible one, and a picture behind. -/
def encoreLayers : List Layer :=
  [sampleLayer true [sampleItem "picture" 0, sampleItem "music" 1],
    sampleLayer false [sampleItem "hidden" 0],
    sampleLayer true
      [sampleItem "film" 2, sampleItem "title" 0, sampleItem "voice" 0, sampleItem "music" 9],
    sampleLayer false [sampleItem "unused" 0], sampleLayer true [sampleItem "unused" 6]]

theorem begins_encore :
    ∃ job job', prepare sampleWorkplace concertPayload "concert.mp4" = .ok job ∧
      prepare sampleWorkplace { concertPayload with layers := encoreLayers } "encore.mp4" =
        .ok job' ∧
      (job.graph.unmixed.length = 13 ∧ job.graph.stages.length = 14) ∧
      job'.graph.stages.length = 19 ∧ job.Begins job' := by
  have prepared : ∃ job ∈ (prepare sampleWorkplace concertPayload "concert.mp4").toOption,
      job.graph.unmixed.length = 13 ∧ job.graph.stages.length = 14 := by
    decide +kernel
  have prepared' : ∃ job ∈ (prepare sampleWorkplace
      { concertPayload with layers := encoreLayers } "encore.mp4").toOption,
      job.graph.stages.length = 19 := by
    decide +kernel
  obtain ⟨job, member, lengths⟩ := prepared
  obtain ⟨job', member', length⟩ := prepared'
  have prepared := mem_toOption.mp member
  have prepared' := mem_toOption.mp member'
  have prolongs : Prolongs concertPayload.layers encoreLayers :=
    .intro (sampleLayers.take 2) rfl (by simp [sampleLayer]) [sampleItem "music" 9]
      [sampleLayer false [sampleItem "unused" 0], sampleLayer true [sampleItem "unused" 6]]
  exact ⟨job, job', prepared, prepared', lengths, length,
    begins_of_prolongs prolongs prepared prepared'⟩

end RenderJob

end Montage
