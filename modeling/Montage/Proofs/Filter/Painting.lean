import Montage.Proofs.Caption
import Montage.Proofs.Filter.Stream

/-!
# The order of painting

The picture of a film is one trail of stages. Each draws on what the one before it has left, from
the matte to the picture that a command takes. The trail goes through every drawing stage in the
order of the list, and the stages on it belong to the drawn items, one after another in the order
of layers and, within a layer, of items.
-/

namespace Montage.Filter

variable {context : Context} {item : TimelineItem} {tag name final : String}
variable {draft next : Draft} {items : List (TimelineItem × String)}
variable {stage : Stage} {stages : List Stage}

/-! ## Trails -/

/-- The label of the picture that a stage draws on. Stages that draw on none have none. -/
def Stage.canvas? : Stage → Option String
  | .overlay stage => some stage.base
  | .drawBox stage => some stage.input
  | .drawText stage => some stage.input
  | .background _ | .trim _ | .scale _ | .volume _ | .delay _ | .mix _ => none

/-- Holds of the stages that draw on a picture. -/
def Stage.isDrawing (stage : Stage) : Bool :=
  stage.canvas?.isSome

/-- The stages on the way from a label to one that no stage reads. At each label the way leads
through the only stage that reads it, and that stage draws on it. -/
inductive Trail (stages : List Stage) : String → List Stage → String → Prop where
  | arrived {name : String} (unread : name ∉ readLabels stages) : Trail stages name [] name
  | draw {name final : String} {stage : Stage} {rest : List Stage}
      (reader : (stages.filter fun reader => name ∈ reader.inputs) = [stage])
      (canvas : stage.canvas? = some name) (onward : Trail stages stage.output rest final) :
      Trail stages name (stage :: rest) final

theorem Stage.mem_inputs_of_canvas? (canvas : stage.canvas? = some name) :
    name ∈ stage.inputs := by
  cases stage <;> simp_all [Stage.canvas?, Stage.inputs]

/-- A label leads one way only. -/
theorem Trail.unique {visited visited' : List Stage} {final' : String}
    (trail : Trail stages name visited final) (trail' : Trail stages name visited' final') :
    visited = visited' ∧ final = final' := by
  induction trail generalizing visited' final' with
  | arrived unread =>
      cases trail' with
      | arrived => exact ⟨rfl, rfl⟩
      | @draw _ _ stage rest reader canvas onward =>
          have listed := List.mem_filter.mp (reader ▸ List.mem_singleton_self stage)
          exact (unread (List.mem_flatMap.mpr
            ⟨stage, listed.1, Stage.mem_inputs_of_canvas? canvas⟩)).elim
  | @draw name final stage rest reader canvas onward ih =>
      cases trail' with
      | arrived unread =>
          have listed := List.mem_filter.mp (reader ▸ List.mem_singleton_self stage)
          exact (unread (List.mem_flatMap.mpr
            ⟨stage, listed.1, Stage.mem_inputs_of_canvas? canvas⟩)).elim
      | draw reader' canvas' onward' =>
          obtain rfl := List.singleton_inj.mp (reader.symm.trans reader')
          obtain ⟨rfl, rfl⟩ := ih onward'
          exact ⟨rfl, rfl⟩

/-- Stages that each take in what the one before it gives. A function says which label a stage
takes in. -/
inductive Linked (taken? : Stage → Option String) : String → List Stage → String → Prop where
  | done (name : String) : Linked taken? name [] name
  | next {name final : String} {stage : Stage} {rest : List Stage}
      (taken : taken? stage = some name) (onward : Linked taken? stage.output rest final) :
      Linked taken? name (stage :: rest) final

theorem Linked.append {taken? : Stage → Option String} {middle : String} {more : List Stage}
    (first : Linked taken? name stages middle) (second : Linked taken? middle more final) :
    Linked taken? name (stages ++ more) final := by
  induction first with
  | done => exact second
  | next taken _ ih => exact .next taken (ih second)

/-- A label that is read at one place is read by one stage. -/
theorem filter_reads_eq_singleton (once : (readLabels stages).count name = 1)
    (member : stage ∈ stages) (read : name ∈ stage.inputs) :
    (stages.filter fun reader => name ∈ reader.inputs) = [stage] := by
  induction stages with
  | nil => contradiction
  | cons head rest ih =>
      have total : head.inputs.count name + (readLabels rest).count name = 1 := by
        rw [← List.count_append]
        exact once
      by_cases here : name ∈ head.inputs
      · have none : (readLabels rest).count name = 0 := by
          have := List.count_pos_iff.mpr here
          omega
        have unread : ∀ reader ∈ rest, name ∉ reader.inputs := fun reader listed reads =>
          List.count_eq_zero.mp none (List.mem_flatMap.mpr ⟨reader, listed, reads⟩)
        have same : stage = head :=
          (List.mem_cons.mp member).resolve_right fun later => unread stage later read
        rw [List.filter_cons_of_pos (by simpa using here), same, List.filter_eq_nil_iff.mpr]
        simpa using unread
      · have later : stage ∈ rest :=
          (List.mem_cons.mp member).resolve_left fun same => here (same ▸ read)
        rw [List.filter_cons_of_neg (by simpa using here)]
        rw [List.count_eq_zero_of_not_mem here, Nat.zero_add] at total
        exact ih total later

/-- In a well-formed graph no other stage reads what linked drawing stages draw on. -/
theorem Linked.trail {graph : Graph} (wellFormed : graph.WellFormed)
    (linked : Linked Stage.canvas? name stages final) (listed : stages ⊆ graph.stages)
    (defined : name ∈ definedLabels graph.stages) (taken : final ∈ graph.outputs.labels) :
    Trail graph.stages name stages final := by
  induction linked with
  | done => exact .arrived (wellFormed.unread _ taken)
  | @next name final stage rest canvas onward ih =>
      have member : stage ∈ graph.stages := listed List.mem_cons_self
      have read : name ∈ stage.inputs := Stage.mem_inputs_of_canvas? canvas
      have untaken : name ∉ graph.outputs.labels := fun output =>
        wellFormed.unread name output (List.mem_flatMap.mpr ⟨stage, member, read⟩)
      have once := wellFormed.readOnce name defined untaken
      refine .draw (filter_reads_eq_singleton once member read) canvas (ih ?_ ?_ taken)
      · exact fun later among => listed (List.mem_cons_of_mem _ among)
      · exact List.mem_map_of_mem member

/-! ## Drawn items -/

/-- Holds of an item that is drawn where its layer is visible: an image, a moving picture that
lasts, or a text with words. A picture needs an input, a text none. -/
def isDrawn (context : Context) (item : TimelineItem) : Bool :=
  match context.library.find? item.mediaId with
  | none => false
  | some media =>
      match context.sources.find? media.id, media.kind with
      | none, _ => false
      | some _, .text => !(Caption.sanitize (media.text.getD "").toList).isEmpty
      | some (.input _), .image => true
      | some (.input _), .video => !decide (item.duration ≤ 0)
      | some _, _ => false

/-- The drawn items of visible layers with their tags, in the order of painting. -/
def drawnItems (context : Context) (layers : List Layer) : List (TimelineItem × String) :=
  (taggedItems layers).filter fun entry => isDrawn context entry.1

/-- Items are taken layer by layer, and from a layer item by item. -/
theorem map_fst_taggedItems (layers : List Layer) :
    (taggedItems layers).map (·.1) = (layers.filter (·.visible)).flatMap (·.items) := by
  rw [taggedItems, List.map_flatMap]
  simp only [List.map_map, Function.comp_def]
  rw [← List.zipIdx_map_fst 0 (layers.filter (·.visible)), List.flatMap_map]
  simp

theorem mem_visibleItems_of_tagged {layers : List Layer} {entry : TimelineItem × String}
    (member : entry ∈ taggedItems layers) : entry.1 ∈ Inputs.visibleItems layers := by
  rw [Inputs.visibleItems, ← map_fst_taggedItems]
  exact List.mem_map_of_mem member

/-- The drawn items are taken layer by layer, and from a layer item by item. -/
theorem map_fst_drawnItems (context : Context) (layers : List Layer) :
    (drawnItems context layers).map (·.1) =
      ((layers.filter (·.visible)).flatMap (·.items)).filter (isDrawn context) := by
  rw [← map_fst_taggedItems, drawnItems, List.filter_map]
  rfl

/-- The drawing stages of one item: a picture laid over what is there, or a text, which may stand
on a filled box of its own. -/
inductive Stroke (context : Context) (item : TimelineItem) : List Stage → Prop where
  | overlay {media : MediaItem} {position : Int} {rect : PixelRect} {overlay : Overlay}
      (sourced : SourcedBy context item media position)
      (kind : media.kind = .image ∨ media.kind = .video)
      (placed : Geometry.resolve item.geometry (some media) context.frame = .ok rect)
      (corner : overlay.x = .int rect.x ∧ overlay.y = .int rect.y)
      (timed : overlay.start = .real item.startTime ∧
        overlay.finish = .real (item.startTime + item.duration)) :
      Stroke context item [.overlay overlay]
  | text {media : MediaItem} {caption : Caption} {drawText : DrawText}
      (found : context.library.find? item.mediaId = some media) (kind : media.kind = .text)
      (unfilled : caption.backgroundColor = none)
      (draws : Draws context item media caption drawText) :
      Stroke context item [.drawText drawText]
  | boxedText {media : MediaItem} {rect : PixelRect} {caption : Caption} {drawBox : DrawBox}
      {drawText : DrawText} (found : context.library.find? item.mediaId = some media)
      (kind : media.kind = .text) (fills : Fills rect caption drawText drawBox)
      (draws : Draws context item media caption drawText) :
      Stroke context item [.drawBox drawBox, .drawText drawText]

/-- The stages that a draft has beyond those of another. -/
def newStages (draft next : Draft) : List Stage :=
  next.stages.drop draft.stages.length

/-- Holds of the stages that compiling an item at its place adds. -/
inductive AddedFor (context : Context) (items : List (TimelineItem × String)) :
    TimelineItem × String → List Stage → Prop where
  | intro {entry : TimelineItem × String} {earlier later : List (TimelineItem × String)}
      {draft next : Draft} (place : items = earlier ++ entry :: later)
      (reached : addItems context earlier (Draft.start context) = .ok draft)
      (compiled : addItem context entry.1 entry.2 draft = .ok next) :
      AddedFor context items entry (newStages draft next)

/-- Holds of the drawing stages that are added for an item, if they are a stroke. -/
inductive Painted (context : Context) (items : List (TimelineItem × String)) :
    TimelineItem × String → List Stage → Prop where
  | intro {entry : TimelineItem × String} {added : List Stage}
      (addedFor : AddedFor context items entry added)
      (shape : Stroke context entry.1 (added.filter Stage.isDrawing)) :
      Painted context items entry (added.filter Stage.isDrawing)

/-! ## One item -/

@[simp] theorem newStages_self (draft : Draft) : newStages draft draft = [] :=
  List.drop_length

@[simp] theorem newStages_append (added : List Stage) (video : String) (branches : List String)
    (pictures : Nat) :
    newStages draft ⟨draft.stages ++ added, video, branches, pictures⟩ = added :=
  List.drop_left

/-- A sound draws nothing. -/
theorem filter_isDrawing_chainSteps {factor : Binary64} {branch source : String} :
    (chainSteps tag branch source (soundSteps item factor)).filter Stage.isDrawing = [] := by
  refine List.filter_eq_nil_iff.mpr fun stage member => ?_
  cases soundStage_of_mem_chainSteps member with
  | cut => simp [Stage.isDrawing, Stage.canvas?]
  | volume => simp [Stage.isDrawing, Stage.canvas?]
  | delay => simp [Stage.isDrawing, Stage.canvas?]

/-- An item that is passed over is not drawn. -/
theorem not_isDrawn_of_skipped (skipped : Skipped context item) : isDrawn context item = false := by
  match skipped with
  | .unknown missing => simp [isDrawn, missing]
  | .unsourced found missing => simp [isDrawn, found, missing]
  | @Skipped.fileless _ _ media found source notText =>
      cases kind : media.kind <;> simp_all [isDrawn]
  | @Skipped.over _ _ media found kind instant =>
      rcases source : context.sources.find? media.id with _ | _ | position
      all_goals rcases kind with kind | kind | kind
      all_goals simp [isDrawn, found, source, kind, instant]
  | @Skipped.silent _ _ media found kind _ =>
      rcases source : context.sources.find? media.id with _ | _ | position
      all_goals rcases kind with kind | kind
      all_goals simp [isDrawn, found, source, kind]
  | @Skipped.wordless _ _ media _ found kind _ captionless =>
      have wordless := Caption.sanitize_eq_nil_of_ofMedia? captionless
      rcases source : context.sources.find? media.id with _ | _ | position
      all_goals simp [isDrawn, found, source, kind, wordless]

namespace Addition

/-- Whatever an item adds, its drawing stages continue the picture. -/
theorem linked (addition : Addition context item tag draft next) :
    Linked Stage.canvas? draft.video ((newStages draft next).filter Stage.isDrawing)
      next.video := by
  cases addition with
  | skip =>
      rw [newStages_self]
      exact .done _
  | image =>
      rw [Draft.overlay, List.append_assoc, newStages_append]
      exact .next rfl (.done _)
  | video =>
      rw [Draft.overlay, List.append_assoc, newStages_append]
      exact .next rfl (.done _)
  | sound =>
      rw [newStages_append, filter_isDrawing_chainSteps]
      exact .done _
  | text _ _ _ input =>
      rw [newStages_append]
      exact .next (congrArg some input) (.done _)
  | boxedText _ _ _ boxInput _ input =>
      rw [List.append_assoc, newStages_append]
      exact .next (congrArg some boxInput) (.next (congrArg some input) (.done _))

/-- What a drawn item adds is a stroke. -/
theorem stroke (addition : Addition context item tag draft next)
    (drawn : isDrawn context item = true) :
    Stroke context item ((newStages draft next).filter Stage.isDrawing) := by
  cases addition with
  | skip reason => simp [not_isDrawn_of_skipped reason] at drawn
  | image sourced kind placed =>
      rw [Draft.overlay, List.append_assoc, newStages_append]
      exact .overlay sourced (.inl kind) placed ⟨rfl, rfl⟩ ⟨rfl, rfl⟩
  | video sourced kind _ placed =>
      rw [Draft.overlay, List.append_assoc, newStages_append]
      exact .overlay sourced (.inr kind) placed ⟨rfl, rfl⟩ ⟨rfl, rfl⟩
  | sound sourced kind =>
      rcases kind with kind | kind
      all_goals simp [isDrawn, sourced.found, sourced.source, kind] at drawn
  | text found _ kind _ _ _ _ unfilled draws =>
      rw [newStages_append]
      exact .text found kind unfilled draws
  | boxedText found _ kind _ _ _ _ _ _ fills draws =>
      rw [List.append_assoc, newStages_append]
      exact .boxedText found kind fills draws

/-- What is not drawn adds no drawing stage. -/
theorem filter_isDrawing_eq_nil (addition : Addition context item tag draft next)
    (undrawn : isDrawn context item = false) :
    (newStages draft next).filter Stage.isDrawing = [] := by
  cases addition with
  | skip => rw [newStages_self, List.filter_nil]
  | image sourced kind => simp [isDrawn, sourced.found, sourced.source, kind] at undrawn
  | video sourced kind lasting =>
      simp [isDrawn, sourced.found, sourced.source, kind, lasting] at undrawn
  | sound => rw [newStages_append, filter_isDrawing_chainSteps]
  | text found source kind _ _ _ captioned =>
      have worded := (Caption.describes_of_ofMedia? captioned).nonempty
      simp [isDrawn, found, source, kind, worded] at undrawn
  | boxedText found source kind _ _ _ _ _ captioned =>
      have worded := (Caption.describes_of_ofMedia? captioned).nonempty
      simp [isDrawn, found, source, kind, worded] at undrawn

/-- The stages of the next draft are the old ones and then the new. -/
theorem stages_eq (addition : Addition context item tag draft next) :
    next.stages = draft.stages ++ newStages draft next := by
  obtain ⟨added, stages⟩ := addition.stages_grow
  rw [newStages, ← stages, List.drop_left]

end Addition

/-! ## All items -/

/-- The stages of one sort come item by item, if only items of one sort add any. -/
theorem exists_groups_of_addItems {keep : Stage → Bool} {chosen : TimelineItem → Bool}
    (passed : ∀ entry ∈ items, ∀ draft next, Addition context entry.1 entry.2 draft next →
      chosen entry.1 = false → (newStages draft next).filter keep = [])
    (earlier : List (TimelineItem × String))
    (reached : addItems context earlier (Draft.start context) = .ok draft)
    (compiled : addItems context items draft = .ok next) :
    ∃ groups : List (List Stage),
      next.stages.filter keep =
        draft.stages.filter keep ++ (groups.map fun added => added.filter keep).flatten ∧
      List.Forall₂ (fun entry added =>
          chosen entry.1 = true ∧ AddedFor context (earlier ++ items) entry added)
        (items.filter fun entry => chosen entry.1) groups := by
  -- The items before the current one grow with the draft, so that each place can be named.
  induction items generalizing earlier draft with
  | nil =>
      cases compiled
      exact ⟨[], by simp, .nil⟩
  | cons entry rest ih =>
      obtain ⟨middle, added, compiled⟩ := bind_eq_ok.mp compiled
      have reachedNext :
          addItems context (earlier ++ [entry]) (Draft.start context) = .ok middle :=
        addItems_append_eq_ok.mpr ⟨draft, reached, bind_eq_ok.mpr ⟨middle, added, rfl⟩⟩
      have later := fun entry member => passed entry (List.mem_cons_of_mem _ member)
      obtain ⟨groups, kept, all⟩ := ih later _ reachedNext compiled
      rw [List.append_assoc] at all
      have addition := addition_of_addItem added
      rw [addition.stages_eq, List.filter_append, List.append_assoc] at kept
      cases here : chosen entry.1 with
      | false =>
          rw [passed entry List.mem_cons_self _ _ addition here, List.nil_append] at kept
          refine ⟨groups, kept, ?_⟩
          simpa [here] using all
      | true =>
          refine ⟨newStages draft middle :: groups, kept, ?_⟩
          rw [List.filter_cons_of_pos (by simpa using here)]
          exact .cons ⟨here, .intro rfl reached added⟩ all

/-- The drawing stages of items continue the picture, one after another. -/
theorem linked_of_addItems (compiled : addItems context items draft = .ok next) :
    ∃ drawings, next.stages.filter Stage.isDrawing =
        draft.stages.filter Stage.isDrawing ++ drawings ∧
      Linked Stage.canvas? draft.video drawings next.video := by
  induction items generalizing draft with
  | nil =>
      cases compiled
      exact ⟨[], by simp, .done _⟩
  | cons entry rest ih =>
      obtain ⟨middle, added, compiled⟩ := bind_eq_ok.mp compiled
      obtain ⟨drawings, stages, linked⟩ := ih compiled
      have addition := addition_of_addItem added
      rw [addition.stages_eq, List.filter_append, List.append_assoc] at stages
      exact ⟨_, stages, addition.linked.append linked⟩

/-- Items draw stroke after stroke, and each stroke continues the picture. -/
theorem painted_of_addItems (earlier : List (TimelineItem × String))
    (reached : addItems context earlier (Draft.start context) = .ok draft)
    (compiled : addItems context items draft = .ok next) :
    ∃ strokes : List (List Stage),
      next.stages.filter Stage.isDrawing =
        draft.stages.filter Stage.isDrawing ++ strokes.flatten ∧
      Linked Stage.canvas? draft.video strokes.flatten next.video ∧
      List.Forall₂ (Painted context (earlier ++ items))
        (items.filter fun entry => isDrawn context entry.1) strokes := by
  obtain ⟨groups, drawn, added⟩ := exists_groups_of_addItems
    (fun entry _ draft next (addition : Addition context entry.1 entry.2 draft next) =>
      addition.filter_isDrawing_eq_nil) earlier reached compiled
  obtain ⟨drawings, stages, linked⟩ := linked_of_addItems compiled
  rw [← List.append_cancel_left (drawn.symm.trans stages)] at linked
  refine ⟨_, drawn, linked, List.forall₂_map_right_iff.mpr (added.imp ?_)⟩
  rintro entry added ⟨visible, addedFor⟩
  refine .intro addedFor ?_
  cases addedFor with
  | intro place reached compiled => exact (addition_of_addItem compiled).stroke visible

/-- Items add stages behind those that are there. -/
theorem stages_grow_of_addItems (compiled : addItems context items draft = .ok next) :
    draft.stages <+: next.stages := by
  induction items generalizing draft with
  | nil =>
      cases compiled
      exact List.prefix_rfl
  | cons entry rest ih =>
      obtain ⟨middle, added, compiled⟩ := bind_eq_ok.mp compiled
      exact (addition_of_addItem added).stages_grow.trans (ih compiled)

/-- What is added for an item stands together in the graph. -/
theorem AddedFor.infix_stages {layers : List Layer} {graph : Graph} {entry : TimelineItem × String}
    {added : List Stage} (addedFor : AddedFor context (taggedItems layers) entry added)
    (compiled : Graph.ofLayers context layers = .ok graph) : added <:+: graph.stages := by
  obtain ⟨last, items, equal⟩ := bind_eq_ok.mp compiled
  cases equal
  cases addedFor with
  | @intro earlier later draft next place reached compiledEntry =>
      rw [place, addItems_append_eq_ok] at items
      obtain ⟨draft', reached', rest⟩ := items
      cases reached.symm.trans reached'
      obtain ⟨next', compiledEntry', rest⟩ := bind_eq_ok.mp rest
      cases compiledEntry.symm.trans compiledEntry'
      obtain ⟨after, stages⟩ := stages_grow_of_addItems rest
      rw [(addition_of_addItem compiledEntry).stages_eq] at stages
      have within : newStages draft next <:+: last.stages := ⟨draft.stages, after, stages⟩
      exact within.trans (List.prefix_append _ _).isInfix

theorem Draft.filter_isDrawing_finish (draft : Draft) :
    draft.finish.stages.filter Stage.isDrawing = draft.stages.filter Stage.isDrawing := by
  match branches : draft.audioBranches with
  | [] => simp [Draft.finish, branches]
  | [branch] => simp [Draft.finish, branches]
  | first :: second :: rest =>
      simp [Draft.finish, branches, Stage.isDrawing, Stage.canvas?]

/-- A graph whose picture is drawn item by item, in the order of painting. -/
structure Graph.PaintsInOrder (context : Context) (layers : List Layer) (graph : Graph) :
    Prop where
  /-- The way from the matte leads through every drawing stage, in the order of the list and
  through nothing else, to the picture that a command takes. -/
  trail : ∀ visited final, Trail graph.stages matteLabel visited final ↔
    visited = graph.stages.filter Stage.isDrawing ∧ final = graph.outputs.video
  /-- The drawing stages are the strokes of the drawn items, one after another. -/
  strokes : ∃ strokes : List (List Stage),
    graph.stages.filter Stage.isDrawing = strokes.flatten ∧
      List.Forall₂ (Painted context (taggedItems layers)) (drawnItems context layers) strokes
  /-- The drawn items are taken layer by layer, and from a layer item by item. -/
  items : (drawnItems context layers).map (·.1) =
    ((layers.filter (·.visible)).flatMap (·.items)).filter (isDrawn context)

/-- Every compiled graph is painted item by item, in the order of layers and of their items. -/
theorem Graph.paintsInOrder_of_layers {layers : List Layer} {graph : Graph}
    (compiled : Graph.ofLayers context layers = .ok graph) :
    graph.PaintsInOrder context layers := by
  obtain ⟨draft, items, equal⟩ := bind_eq_ok.mp compiled
  cases equal
  have wellFormed := Draft.wellFormed_finish items
  obtain ⟨strokes, drawings, linked, painted⟩ := painted_of_addItems [] rfl items
  have listed : draft.finish.stages.filter Stage.isDrawing = strokes.flatten := by
    rw [draft.filter_isDrawing_finish, drawings]
    simp [Draft.start, Stage.isDrawing, Stage.canvas?]
  have started : (Draft.start context).stages <+: draft.finish.stages :=
    (stages_grow_of_addItems items).trans ⟨_, rfl⟩
  have matte : matteLabel ∈ definedLabels draft.finish.stages :=
    List.mem_map_of_mem (started.subset List.mem_cons_self)
  rw [← listed] at linked
  have trail := linked.trail wellFormed (List.filter_subset_self _) matte List.mem_cons_self
  refine ⟨fun visited final => ⟨fun other => other.unique trail, ?_⟩, ⟨strokes, listed, painted⟩,
    map_fst_drawnItems context layers⟩
  rintro ⟨rfl, rfl⟩
  exact trail

/-- The sample layers draw a picture, a film and a title, of which the title stands on a box. -/
theorem paintsInOrder_sampleLayers :
    ∃ graph, Graph.ofLayers sampleContext sampleLayers = .ok graph ∧
      (drawnItems sampleContext sampleLayers).map (·.1.mediaId) = ["picture", "film", "title"] ∧
      (graph.stages.filter Stage.isDrawing).length = 4 ∧
      graph.PaintsInOrder sampleContext sampleLayers := by
  have compiled : ∃ graph ∈ (Graph.ofLayers sampleContext sampleLayers).toOption,
      (graph.stages.filter Stage.isDrawing).length = 4 := by decide +kernel
  obtain ⟨graph, member, length⟩ := compiled
  have compiled := mem_toOption.mp member
  exact ⟨graph, compiled, by decide +kernel, length, Graph.paintsInOrder_of_layers compiled⟩

end Montage.Filter
