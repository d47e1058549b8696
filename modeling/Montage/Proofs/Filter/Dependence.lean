import Montage.Filter.Graph

/-!
# What a graph depends on

An item is compiled from its times, its geometry and its asset, whatever its id and its track. Of
an asset everything counts but the choice of where its lines would begin. Of the library and the
sources only the entries count that the item leads to, so contexts that agree on the items have the
same graph.
-/

namespace Montage

/-- An item without what a film does not show. -/
def TimelineItem.shown (item : TimelineItem) : TimelineItem :=
  { item with id := "", track := 0 }

/-- An asset without what a film does not show. -/
def MediaItem.shown (media : MediaItem) : MediaItem :=
  { media with textAlignment := none }

@[simp] theorem TimelineItem.mediaId_shown (item : TimelineItem) :
    item.shown.mediaId = item.mediaId := rfl

@[simp] theorem MediaItem.id_shown (media : MediaItem) : media.shown.id = media.id := rfl

/-- Assets that show alike differ at most in where their lines would begin. -/
theorem MediaItem.exists_of_shown_eq {media media' : MediaItem}
    (alike : media.shown = media'.shown) :
    ∃ alignment, media' = { media with textAlignment := alignment } := by
  refine ⟨media'.textAlignment, ?_⟩
  cases media
  cases media'
  simpa [shown, eq_comm] using alike

/-- Where the lines of a text would begin does not matter for where it is placed. -/
theorem Geometry.resolve_aligned (own : Option Geometry) (media : MediaItem)
    (alignment : Option TextAlignment) (frame : FrameSize) :
    resolve own (some { media with textAlignment := alignment }) frame =
      resolve own (some media) frame := by
  cases own with
  | none => rfl
  | some geometry => rfl

namespace Filter

variable {context context' : Context} {item : TimelineItem} {media media' : MediaItem}
variable {tag : String} {draft : Draft} {items : List (TimelineItem × String)}

/-- Two contexts agree on what is compiled for items that name an asset. -/
structure Context.AgreesOn (context context' : Context) (id : String) : Prop where
  frame : context.frame = context'.frame
  metrics : context.metrics = context'.metrics
  textDuration : context.textDuration = context'.textDuration
  platform : context.platform = context'.platform
  asset : (context.library.find? id).map MediaItem.shown =
    (context'.library.find? id).map MediaItem.shown
  source : ∀ media ∈ context.library.find? id,
    context.sources.find? media.id = context'.sources.find? media.id

/-! ## What an item reads -/

/-- The id and the track of an item do not show. -/
theorem addItem_shown (context : Context) (item : TimelineItem) (tag : String) (draft : Draft) :
    addItem context item.shown tag draft = addItem context item tag draft := rfl

theorem addText_eq_of_agreesOn {id : String} (agrees : context.AgreesOn context' id)
    (alike : media.shown = media'.shown) :
    addText context item media draft = addText context' item media' draft := by
  obtain ⟨alignment, rfl⟩ := MediaItem.exists_of_shown_eq alike
  simp only [addText, textWindow, Geometry.resolve_aligned, agrees.frame, agrees.metrics,
    agrees.textDuration, agrees.platform]
  rfl

theorem addImage_eq_of_agreesOn {id : String} {position : Int}
    (agrees : context.AgreesOn context' id) (alike : media.shown = media'.shown) :
    addImage context item media position tag draft =
      addImage context' item media' position tag draft := by
  obtain ⟨alignment, rfl⟩ := MediaItem.exists_of_shown_eq alike
  simp only [addImage, Geometry.resolve_aligned, agrees.frame]

theorem addVideo_eq_of_agreesOn {id : String} {position : Int}
    (agrees : context.AgreesOn context' id) (alike : media.shown = media'.shown) :
    addVideo context item media position tag draft =
      addVideo context' item media' position tag draft := by
  obtain ⟨alignment, rfl⟩ := MediaItem.exists_of_shown_eq alike
  simp only [addVideo, Geometry.resolve_aligned, agrees.frame]

theorem addAudio_eq_of_shown {position : Int} (alike : media.shown = media'.shown) :
    addAudio item media position tag draft = addAudio item media' position tag draft := by
  obtain ⟨alignment, rfl⟩ := MediaItem.exists_of_shown_eq alike
  rfl

/-- An item is compiled alike in contexts that agree on its asset. -/
theorem addItem_eq_of_agreesOn (agrees : context.AgreesOn context' item.mediaId) :
    addItem context item tag draft = addItem context' item tag draft := by
  have assets := agrees.asset
  have sources := agrees.source
  rw [addItem, addItem]
  cases found : context.library.find? item.mediaId with
  | none =>
      rw [found, Option.map_none, eq_comm, Option.map_eq_none_iff] at assets
      rw [assets]
  | some media =>
      rw [found, Option.map_some, eq_comm, Option.map_eq_some_iff] at assets
      obtain ⟨media', found', alike⟩ := assets
      have named : media'.id = media.id := by
        rw [← MediaItem.id_shown, alike, MediaItem.id_shown]
      have kind : media'.kind = media.kind := by
        obtain ⟨alignment, rfl⟩ := MediaItem.exists_of_shown_eq alike
        rfl
      simp only [found', named, kind, ← sources media found]
      -- The cases are those of the definition, which looks at the source and the kind together.
      split
      next => rfl
      next => exact addText_eq_of_agreesOn agrees alike.symm
      next => rfl
      next => exact addImage_eq_of_agreesOn agrees alike.symm
      next => exact addVideo_eq_of_agreesOn agrees alike.symm
      next => exact addAudio_eq_of_shown alike.symm
      next => exact addAudio_eq_of_shown alike.symm

/-- Items are compiled alike in contexts that agree on their assets. -/
theorem addItems_eq_of_agreesOn
    (agrees : ∀ entry ∈ items, context.AgreesOn context' entry.1.mediaId) (draft : Draft) :
    addItems context items draft = addItems context' items draft := by
  induction items generalizing draft with
  | nil => rfl
  | cons entry rest ih =>
      rw [List.forall_mem_cons] at agrees
      simp only [addItems, List.foldlM_cons, addItem_eq_of_agreesOn agrees.1]
      exact bind_congr fun next => ih agrees.2 next

/-- The ids and the tracks of items do not show. -/
theorem addItems_shown (context : Context) (items : List (TimelineItem × String)) (draft : Draft) :
    addItems context (items.map (Prod.map TimelineItem.shown id)) draft =
      addItems context items draft := by
  induction items generalizing draft with
  | nil => rfl
  | cons entry rest ih =>
      simp only [addItems, List.map_cons, List.foldlM_cons, Prod.map_fst, Prod.map_snd, id_eq,
        addItem_shown]
      exact bind_congr fun next => ih next

end Filter

end Montage
