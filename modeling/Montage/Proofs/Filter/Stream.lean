import Montage.Proofs.Filter.Wiring

/-!
# Streams of inputs

A stage reads a stream of an input only where compilation takes it for an item: the picture of an
image or a video, or the sound of an audio or a voice-over. The matte and the mix read none.
-/

namespace Montage.Filter

variable {context : Context} {item : TimelineItem} {tag name : String} {tags : List String}
variable {draft next : Draft} {items : List (TimelineItem × String)} {stage : Stage}

/-- Holds of the stages that compiling an item adds behind those of the items before it. -/
inductive CompiledFor (context : Context) (items : List (TimelineItem × String))
    (item : TimelineItem) : Stage → Prop where
  | intro {tag : String} {earlier later : List (TimelineItem × String)} {draft next : Draft}
      {stage : Stage} (place : items = earlier ++ (item, tag) :: later)
      (reached : addItems context earlier (Draft.start context) = .ok draft)
      (compiled : addItem context item tag draft = .ok next)
      (new : stage ∈ next.stages.drop draft.stages.length) : CompiledFor context items item stage

/-- The stream that an item takes from the input of its asset. -/
inductive Takes (context : Context) (item : TimelineItem) : String → Prop where
  | picture {media : MediaItem} {position : Int} (sourced : SourcedBy context item media position)
      (kind : media.kind = .image ∨ media.kind = .video) : Takes context item (videoStream position)
  | sound {media : MediaItem} {position : Int} (sourced : SourcedBy context item media position)
      (kind : media.kind = .audio ∨ media.kind = .voiceover) :
      Takes context item (audioStream position)

/-- The only stream that a chain of sound reads is its source. -/
theorem eq_of_mem_chainSteps {factor : Binary64} {branch source : String}
    (member : stage ∈ chainSteps tag branch source (soundSteps item factor))
    (read : name ∈ stage.inputs) (stream : IsStream name) : name = source := by
  have listed : name ∈ readLabels (chainSteps tag branch source (soundSteps item factor)) :=
    List.mem_flatMap_of_mem member read
  rw [Draft.Unary.readLabels_chainSteps (Draft.unary_soundSteps item factor) tag branch source
    (by simp [soundSteps])] at listed
  rcases List.mem_cons.mp listed with same | label
  · exact same
  · obtain ⟨step, -, rfl⟩ := List.mem_map.mp label
    exact absurd stream (not_isStream_label _ _)

/-- The stages that an item adds read no stream but the one that the item takes. -/
theorem Adds.takes_of_read (adds : Adds context item tag draft stage)
    (internal : ¬IsStream draft.video) (read : name ∈ stage.inputs) (stream : IsStream name) :
    Takes context item name := by
  cases adds with
  | trim sourced kind =>
      rw [List.mem_singleton.mp read]
      exact .picture sourced (.inr kind)
  | scale sourced picture =>
      rw [List.mem_singleton.mp read] at stream ⊢
      rcases picture with ⟨kind, rfl⟩ | ⟨-, rfl⟩
      · exact .picture sourced (.inl kind)
      · exact absurd stream (not_isStream_label _ _)
  | overlay =>
      rcases List.mem_pair.mp read with rfl | rfl
      · exact absurd stream internal
      · exact absurd stream (not_isStream_label _ _)
  | sound sourced kind _ _ chained =>
      rw [eq_of_mem_chainSteps chained read stream]
      exact .sound sourced kind
  | drawBox _ _ input =>
      rw [List.mem_singleton.mp read, input] at stream
      exact absurd stream internal
  | drawText _ _ input =>
      rw [List.mem_singleton.mp read] at stream
      rcases input with input | input
      · exact absurd (input ▸ stream) internal
      · exact absurd (input ▸ stream) (not_isStream_label _ _)

theorem addItems_append_eq_ok {left right : List (TimelineItem × String)} :
    addItems context (left ++ right) draft = .ok next ↔
      ∃ middle, addItems context left draft = .ok middle ∧
        addItems context right middle = .ok next := by
  rw [addItems, List.foldlM_append]
  exact bind_eq_ok

/-- The stages that a list of items adds are each compiled for one of them. -/
theorem compiledFor_of_addItems (earlier : List (TimelineItem × String))
    (reached : addItems context earlier (Draft.start context) = .ok draft)
    (compiled : addItems context items draft = .ok next) (member : stage ∈ next.stages) :
    stage ∈ draft.stages ∨ ∃ item, CompiledFor context (earlier ++ items) item stage := by
  -- The items before the current one grow with the draft, so that each place can be named.
  induction items generalizing earlier draft with
  | nil =>
      cases compiled
      exact .inl member
  | cons entry rest ih =>
      obtain ⟨item, tag⟩ := entry
      obtain ⟨middle, added, compiled⟩ := bind_eq_ok.mp compiled
      have reachedNext :
          addItems context (earlier ++ [(item, tag)]) (Draft.start context) = .ok middle :=
        addItems_append_eq_ok.mpr ⟨draft, reached, bind_eq_ok.mpr ⟨middle, added, rfl⟩⟩
      have split := ih _ reachedNext compiled
      rw [List.append_assoc] at split
      rcases split with old | later
      · obtain ⟨new, stages⟩ := (addition_of_addItem added).stages_grow
        rw [← stages, List.mem_append] at old
        refine old.imp_right fun fresh => ⟨item, .intro rfl reached added ?_⟩
        rw [← stages, List.drop_left]
        exact fresh
      · exact .inr later

/-- Items before a place leave a wired draft. -/
theorem wired_of_prefix {layers : List Layer} {earlier later : List (TimelineItem × String)}
    (place : taggedItems layers = earlier ++ later)
    (reached : addItems context earlier (Draft.start context) = .ok draft) :
    ∃ tags, draft.Wired tags := by
  have distinct := taggedItems_distinct layers
  rw [place, List.map_append] at distinct
  obtain ⟨tags, wired, -⟩ := (Draft.wired_start context).addItems reached
    distinct.of_append_left (by simp)
  exact ⟨tags, wired⟩

/-- A stage that is compiled for an item is one of those that items add. -/
theorem CompiledFor.adds (compiledFor : CompiledFor context items item stage) :
    ∃ tag draft, Adds context item tag draft stage := by
  cases compiledFor with
  | intro place reached compiled new =>
      exact ⟨_, _, (addition_of_addItem compiled).adds_of_mem new⟩

/-- A stage that is compiled for an item reads no stream but the one that the item takes. -/
theorem CompiledFor.takes {layers : List Layer}
    (compiledFor : CompiledFor context (taggedItems layers) item stage)
    (read : name ∈ stage.inputs) (stream : IsStream name) : Takes context item name := by
  cases compiledFor with
  | intro place reached compiled new =>
      obtain ⟨tags, wired⟩ := wired_of_prefix place reached
      exact ((addition_of_addItem compiled).adds_of_mem new).takes_of_read
        wired.video_not_isStream read stream

/-- Finishing a draft adds nothing but a mix of its branches. -/
theorem Draft.mem_finish (member : stage ∈ draft.finish.stages) :
    stage ∈ draft.stages ∨ stage = .mix { inputs := draft.audioBranches, output := mixLabel } := by
  match branches : draft.audioBranches with
  | [] => exact .inl (by simpa [Draft.finish, branches] using member)
  | [branch] => exact .inl (by simpa [Draft.finish, branches] using member)
  | first :: second :: rest => simpa [Draft.finish, branches] using member

/-- A stage of a graph is the matte, is compiled for an item, or mixes branches of sound. -/
theorem origin_of_mem {layers : List Layer} {graph : Graph}
    (compiled : Graph.ofLayers context layers = .ok graph) (member : stage ∈ graph.stages) :
    stage ∈ (Draft.start context).stages ∨
      (∃ item, CompiledFor context (taggedItems layers) item stage) ∨
      ∃ branches, (∀ branch ∈ branches, ¬IsStream branch) ∧
        stage = .mix { inputs := branches, output := mixLabel } := by
  obtain ⟨draft, items, equal⟩ := bind_eq_ok.mp compiled
  cases equal
  obtain ⟨tags, wired⟩ := wired_of_prefix (List.append_nil _).symm items
  rcases Draft.mem_finish member with old | mix
  · exact (compiledFor_of_addItems [] rfl items old).imp_right .inl
  · refine .inr (.inr ⟨_, fun branch among => ?_, mix⟩)
    exact wired.not_isStream (wired.open_defined (List.mem_cons_of_mem _ among))

/-- A stage of a graph that reads a stream is compiled for an item. -/
theorem compiledFor_of_read {layers : List Layer} {graph : Graph}
    (compiled : Graph.ofLayers context layers = .ok graph) (member : stage ∈ graph.stages)
    (read : name ∈ stage.inputs) (stream : IsStream name) :
    ∃ item, CompiledFor context (taggedItems layers) item stage := by
  rcases origin_of_mem compiled member with matte | compiledFor | ⟨branches, internal, rfl⟩
  · rw [List.mem_singleton.mp matte] at read
    exact absurd read List.not_mem_nil
  · exact compiledFor
  · exact absurd stream (internal name read)

end Montage.Filter
