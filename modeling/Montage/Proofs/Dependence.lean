import Montage.Proofs.Filter.Dependence
import Montage.Proofs.Filter.Painting
import Montage.Proofs.Job

/-!
# What a job depends on

Hidden layers and unused assets are there for the editor only, and so are the names of layers, the
ids of items, their tracks, and where the lines of a text would begin. Both passes over the items
leave all this out of account, so payloads that show alike have the same outcome.
-/

namespace Montage

open Montage.Filter

/-! ## What shows of a payload -/

/-- A layer without what a film does not show. -/
def Layer.shown (layer : Layer) : Layer :=
  { layer with
    id := "", name := "", locked := false, kind := none
    items := layer.items.map TimelineItem.shown }

@[simp] theorem Layer.visible_shown (layer : Layer) : layer.shown.visible = layer.visible := rfl

namespace RenderPayload

/-- Holds of the assets that an item of a visible layer names. -/
def uses (payload : RenderPayload) (media : MediaItem) : Bool :=
  (Inputs.visibleItems payload.layers).any (·.mediaId == media.id)

/-- A payload without what its film does not show: the hidden layers, the assets that no item of a
visible layer names, and what does not show of the others. -/
def shown (payload : RenderPayload) : RenderPayload :=
  { payload with
    layers := (payload.layers.filter (·.visible)).map Layer.shown
    mediaLibrary := (payload.mediaLibrary.filter payload.uses).map MediaItem.shown }

@[simp] theorem editorSettings_shown (payload : RenderPayload) :
    payload.shown.editorSettings = payload.editorSettings := rfl

@[simp] theorem filmDuration_shown (payload : RenderPayload) (settings : Settings) :
    payload.shown.filmDuration settings = payload.filmDuration settings := rfl

variable {payload : RenderPayload} {item : TimelineItem}

/-- The visible layers are those that are left, in order. -/
theorem filter_visible_shown (payload : RenderPayload) :
    payload.shown.layers.filter (·.visible) =
      (payload.layers.filter (·.visible)).map Layer.shown := by
  rw [shown, List.filter_eq_self]
  intro layer member
  obtain ⟨layer, among, rfl⟩ := List.mem_map.mp member
  exact (List.mem_filter.mp among).2

theorem taggedItems_shown (payload : RenderPayload) :
    taggedItems payload.shown.layers =
      (taggedItems payload.layers).map (Prod.map TimelineItem.shown id) := by
  rw [taggedItems, filter_visible_shown, taggedItems, List.zipIdx_map, List.flatMap_map,
    List.map_flatMap]
  refine List.flatMap_congr fun entry _ => ?_
  simp only [Prod.map_fst, Layer.shown, List.zipIdx_map, List.map_map]
  rfl

theorem visibleItems_shown (payload : RenderPayload) :
    Inputs.visibleItems payload.shown.layers =
      (Inputs.visibleItems payload.layers).map TimelineItem.shown := by
  rw [Inputs.visibleItems, filter_visible_shown, Inputs.visibleItems, List.flatMap_map,
    List.map_flatMap]
  rfl

/-- The asset that counts for an item is left. -/
theorem find?_shown (member : item ∈ Inputs.visibleItems payload.layers) :
    (Library.ofList payload.shown.mediaLibrary).find? item.mediaId =
      ((Library.ofList payload.mediaLibrary).find? item.mediaId).map MediaItem.shown := by
  simp only [Library.find?_ofList, assetOf?, shown, ← List.map_reverse, List.find?_map,
    ← List.filter_reverse, List.find?_filter]
  congr 2
  funext media
  change decide (payload.uses media = true ∧ (media.id == item.mediaId) = true) =
    (media.id == item.mediaId)
  rw [Bool.eq_iff_iff, decide_eq_true_eq, and_iff_right_iff_imp]
  intro named
  rw [uses, List.any_eq_true]
  exact ⟨item, member, beq_iff_eq.mpr (beq_iff_eq.mp named).symm⟩

/-! ### Payloads that have been cleared -/

variable {media : MediaItem} {payload' : RenderPayload}

theorem uses_iff :
    payload.uses media = true ↔
      media.id ∈ (Inputs.visibleItems payload.layers).map (·.mediaId) := by
  simp only [uses, List.any_eq_true, beq_iff_eq, List.mem_map]

/-- What is left names the same assets. -/
theorem map_mediaId_shown (payload : RenderPayload) :
    (Inputs.visibleItems payload.shown.layers).map (·.mediaId) =
      (Inputs.visibleItems payload.layers).map (·.mediaId) := by
  rw [visibleItems_shown, List.map_map]
  rfl

/-- A payload from which the hidden layers and the unused assets have been deleted, and in which
nothing else has been changed but what does not show. -/
structure Cleared (payload payload' : RenderPayload) : Prop where
  layers : payload'.layers.map Layer.shown =
    (payload.layers.filter (·.visible)).map Layer.shown
  mediaLibrary : payload'.mediaLibrary.map MediaItem.shown =
    (payload.mediaLibrary.filter payload.uses).map MediaItem.shown
  timeline : payload'.timeline = payload.timeline
  editorSettings : payload'.editorSettings = payload.editorSettings

/-- Clearing a payload leaves what shows of it. -/
theorem Cleared.shown_eq (cleared : payload.Cleared payload') : payload.shown = payload'.shown := by
  have visible : ∀ layer ∈ payload'.layers, layer.visible = true := by
    intro layer member
    have among : layer.shown ∈ payload'.layers.map Layer.shown := List.mem_map_of_mem member
    rw [cleared.layers] at among
    obtain ⟨layer', among, alike⟩ := List.mem_map.mp among
    have same : layer'.visible = layer.visible := by
      rw [← Layer.visible_shown, alike, Layer.visible_shown]
    exact same.symm.trans (List.mem_filter.mp among).2
  have layers : payload'.shown.layers = payload.shown.layers := by
    rw [shown, List.filter_eq_self.mpr visible]
    exact cleared.layers
  have named : (Inputs.visibleItems payload'.layers).map (·.mediaId) =
      (Inputs.visibleItems payload.layers).map (·.mediaId) := by
    rw [← map_mediaId_shown, layers, map_mediaId_shown]
  have used : ∀ media ∈ payload'.mediaLibrary, payload'.uses media = true := by
    intro media member
    have among : media.shown ∈ payload'.mediaLibrary.map MediaItem.shown :=
      List.mem_map_of_mem member
    rw [cleared.mediaLibrary] at among
    obtain ⟨media', among, alike⟩ := List.mem_map.mp among
    have same : media'.id = media.id := by
      rw [← MediaItem.id_shown, alike, MediaItem.id_shown]
    rw [uses_iff, named, ← same, ← uses_iff]
    exact (List.mem_filter.mp among).2
  have assets : payload'.shown.mediaLibrary = payload.shown.mediaLibrary := by
    rw [shown, List.filter_eq_self.mpr used]
    exact cleared.mediaLibrary
  rw [RenderPayload.mk.injEq]
  exact ⟨layers.symm, assets.symm, cleared.timeline.symm, cleared.editorSettings.symm⟩

end RenderPayload

/-! ## Inputs -/

namespace Inputs

variable {root : String} {isFile : String → Bool} {inputs inputs' : Inputs} {ids : List String}
variable {item : TimelineItem} {media : MediaItem}

/-- Inputs that show alike to items that name certain assets. -/
structure Alike (ids : List String) (inputs inputs' : Inputs) : Prop where
  library : ∀ id ∈ ids,
    inputs'.library.find? id = (inputs.library.find? id).map MediaItem.shown
  used : inputs'.used = inputs.used.map MediaItem.shown
  sources : inputs'.sources = inputs.sources
  files : inputs'.files = inputs.files

theorem Alike.accept (alike : Alike ids inputs inputs') (media : MediaItem) :
    Alike ids (inputs.accept root media) (inputs'.accept root media.shown) where
  library := alike.library
  used := by
    simp only [Inputs.accept, alike.used, List.map_append, List.map_singleton]
  sources := by
    simp only [Inputs.accept, alike.sources, alike.files]
    rfl
  files := by
    simp only [Inputs.accept, alike.files]
    rfl

theorem Alike.addItem (alike : Alike ids inputs inputs') (named : item.mediaId ∈ ids) :
    Alike ids (addItem root isFile inputs item) (addItem root isFile inputs' item.shown) := by
  have looked : inputs'.library.find? item.shown.mediaId = _ := alike.library item.mediaId named
  cases found : inputs.library.find? item.mediaId with
  | none =>
      rw [found, Option.map_none] at looked
      rw [addItem_of_missing found, addItem_of_missing looked]
      exact alike
  | some media =>
      rw [found, Option.map_some] at looked
      rw [addItem_of_found found, addItem_of_found looked, MediaItem.id_shown, alike.sources]
      have usable : media.shown.Usable root isFile ↔ media.Usable root isFile := Iff.rfl
      simp only [usable]
      split
      · exact alike.accept media
      · exact alike

theorem Alike.foldl (alike : Alike ids inputs inputs') {items : List TimelineItem}
    (named : ∀ item ∈ items, item.mediaId ∈ ids) :
    Alike ids (items.foldl (Inputs.addItem root isFile) inputs)
      ((items.map TimelineItem.shown).foldl (Inputs.addItem root isFile) inputs') := by
  induction items generalizing inputs inputs' with
  | nil => exact alike
  | cons item rest ih =>
      rw [List.forall_mem_cons] at named
      exact ih (alike.addItem named.1) named.2

theorem alike_collect (payload : RenderPayload) (root : String) (isFile : String → Bool) :
    Alike ((visibleItems payload.layers).map (·.mediaId))
      (collect payload.layers payload.mediaLibrary root isFile)
      (collect payload.shown.layers payload.shown.mediaLibrary root isFile) := by
  have start : Alike ((visibleItems payload.layers).map (·.mediaId))
      { library := Library.ofList payload.mediaLibrary }
      { library := Library.ofList payload.shown.mediaLibrary } := by
    refine ⟨?_, rfl, rfl, rfl⟩
    intro id named
    obtain ⟨item, member, rfl⟩ := List.mem_map.mp named
    exact RenderPayload.find?_shown member
  rw [collect, collect, RenderPayload.visibleItems_shown]
  exact start.foldl fun item member => List.mem_map_of_mem member

end Inputs

/-! ## Jobs -/

namespace RenderJob

variable {workplace : Workplace} {payload payload' : RenderPayload} {film : FilmPath}
variable {inputs inputs' : Inputs}

/-- What a job tells to those who render it. -/
structure Outcome where
  files : List String
  sources : Table Source
  graph : Graph
  frame : FrameSize
  totalDuration : Binary64
  output : String
  fallbackArguments : List String
  /-- The arguments of the render with the script at a path. -/
  renderArguments : String → Except Failure (List String)

def outcome (settings : Settings) (job : RenderJob) : Outcome where
  files := job.inputs.files
  sources := job.inputs.sources
  graph := job.graph
  frame := job.frame
  totalDuration := job.totalDuration
  output := job.output
  fallbackArguments := job.fallbackArguments
  renderArguments := fun scriptPath => job.renderArguments settings scriptPath

theorem graph_shown
    (alike : inputs.Alike ((Inputs.visibleItems payload.layers).map (·.mediaId)) inputs') :
    Graph.ofLayers (context workplace payload.shown inputs') payload.shown.layers =
      Graph.ofLayers (context workplace payload inputs) payload.layers := by
  have agrees : ∀ entry ∈ taggedItems payload.layers,
      (context workplace payload.shown inputs').AgreesOn (context workplace payload inputs)
        entry.1.mediaId := by
    intro entry member
    have library := alike.library _ (List.mem_map_of_mem (mem_visibleItems_of_tagged member))
    refine ⟨rfl, rfl, rfl, rfl, ?_, ?_⟩
    · simp only [context, library, Option.map_map]
      rfl
    · intro media found
      simp only [context, alike.sources]
  rw [Graph.ofLayers, Graph.ofLayers, RenderPayload.taggedItems_shown, addItems_shown,
    addItems_eq_of_agreesOn agrees]
  rfl

/-- The outcome of a payload is that of what shows of it. -/
theorem outcome_shown (workplace : Workplace) (payload : RenderPayload) (film : FilmPath) :
    (prepare workplace payload.shown film).map (outcome workplace.settings) =
      (prepare workplace payload film).map (outcome workplace.settings) := by
  have alike := Inputs.alike_collect payload workplace.settings.mediaRoot workplace.isFile
  simp only [prepare, Inputs.ofTimeline]
  generalize Inputs.collect payload.layers payload.mediaLibrary workplace.settings.mediaRoot
    workplace.isFile = inputs at alike ⊢
  generalize Inputs.collect payload.shown.layers payload.shown.mediaLibrary
    workplace.settings.mediaRoot workplace.isFile = inputs' at alike ⊢
  rw [alike.used, List.isEmpty_map]
  split
  next => rfl
  next =>
    simp only [bind, Except.bind]
    rw [graph_shown alike]
    simp only [context, RenderPayload.editorSettings_shown, RenderPayload.filmDuration_shown]
    split
    next => rfl
    next graph _ =>
      split
      next => rfl
      next output _ =>
        split
        next => rfl
        next fallback _ =>
          simp only [pure, Except.pure, Except.map, outcome, renderArguments, alike.sources,
            alike.files]

/-- Payloads that show alike have the same outcome: the same failure, or jobs that differ in nothing
that a render takes from them. -/
theorem outcome_eq_of_shown_eq (alike : payload.shown = payload'.shown) (workplace : Workplace)
    (film : FilmPath) :
    (prepare workplace payload film).map (outcome workplace.settings) =
      (prepare workplace payload' film).map (outcome workplace.settings) := by
  rw [← outcome_shown, ← outcome_shown workplace payload', alike]

/-- The sample payload without its hidden layer and the assets that it does not use, and with other
ids, tracks and alignments. -/
def clearedPayload : RenderPayload where
  layers :=
    [{ sampleLayer true
          [{ sampleItem "film" 0 with id := "first", track := 7 }, sampleItem "picture" 1,
            sampleItem "film" 5] with
        name := "Pictures", kind := some "video" },
      { sampleLayer true [sampleItem "title" 2, { sampleItem "lost" 0 with track := -1 }] with
        id := "texts", locked := true }]
  mediaLibrary :=
    [sampleAsset "picture" .image, sampleAsset "film" .video,
      { sampleAsset "title" .text with textAlignment := some .right },
      { sampleAsset "film" .video with filePath := "/second/film" }]
  timeline := { totalDuration := some 12 }
  editorSettings := { videoStyle := none }

theorem outcome_clearedPayload :
    samplePayload.Cleared clearedPayload ∧ samplePayload ≠ clearedPayload ∧
      (prepare sampleWorkplace samplePayload "film.mp4").map (outcome {}) =
        (prepare sampleWorkplace clearedPayload "film.mp4").map (outcome {}) := by
  have cleared : samplePayload.Cleared clearedPayload := by
    constructor
    all_goals decide +kernel
  exact ⟨cleared, by decide +kernel,
    outcome_eq_of_shown_eq cleared.shown_eq sampleWorkplace "film.mp4"⟩

end RenderJob

end Montage
