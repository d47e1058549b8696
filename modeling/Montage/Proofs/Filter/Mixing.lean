import Montage.Proofs.Filter.Timing

/-!
# The sound of a film

Every item that is heard has a branch of sound of its own, and nothing else has one. The way back
from the label of a branch leads through the stages of its item and no other to the stream that
the item takes. Altogether these stages cut the stream to the item, put it off by its start and
make it as loud as its asset. What is mixed at the end are the branches, in the order of painting.
-/

namespace Montage

/-- The binary64 number that a number counts as. -/
def Number.nearest : Number → Binary64
  | .int value => Binary64.ofRat value false
  | .real value => value

namespace Filter

variable {context : Context} {item : TimelineItem} {media : MediaItem} {tag name source : String}
variable {draft next : Draft} {items : List (TimelineItem × String)}
variable {stage : Stage} {stages chain : List Stage}

/-! ## Items that are heard -/

/-- An asset with an input that is heard while its item lasts. -/
structure Heard (context : Context) (item : TimelineItem) (media : MediaItem) (position : Int) :
    Prop extends SourcedBy context item media position where
  kind : media.kind = .audio ∨ media.kind = .voiceover
  unmuted : media.muted = false
  /-- An asset that names no volume is heard. -/
  loud : ∀ volume ∈ media.volume, volume.isZero = false
  lasting : 0 < item.duration

/-- Holds of an item that is heard where its layer is visible. -/
def isHeard (context : Context) (item : TimelineItem) : Bool :=
  match context.library.find? item.mediaId with
  | none => false
  | some media =>
      match context.sources.find? media.id with
      | some (.input _) =>
          (media.kind = .audio || media.kind = .voiceover) && !media.muted &&
            !media.volume.any (·.isZero) && decide (0 < item.duration)
      | some .drawn => false
      | none => false

theorem isHeard_iff :
    isHeard context item = true ↔ ∃ media position, Heard context item media position := by
  constructor
  · intro heard
    simp only [isHeard] at heard
    split at heard
    next => contradiction
    next media found =>
      split at heard
      next position source =>
        simp only [Bool.and_eq_true, Bool.or_eq_true, decide_eq_true_eq, Bool.not_eq_true',
          Option.any_eq_false] at heard
        obtain ⟨⟨⟨kind, unmuted⟩, loud⟩, lasting⟩ := heard
        exact ⟨media, position, ⟨found, source⟩, kind, unmuted, by simpa using loud, lasting⟩
      next => contradiction
      next => contradiction
  · rintro ⟨media, position, heard⟩
    have loud : media.volume.any (·.isZero) = false := by
      simpa [Option.any_eq_false] using heard.loud
    simp [isHeard, heard.found, heard.source, heard.unmuted, heard.lasting, heard.kind, loud]

/-- The items of visible layers that are heard, with their tags, in the order of painting. -/
def heardItems (context : Context) (layers : List Layer) : List (TimelineItem × String) :=
  (taggedItems layers).filter fun entry => isHeard context entry.1

/-- The heard items are taken layer by layer, and from a layer item by item. -/
theorem map_fst_heardItems (context : Context) (layers : List Layer) :
    (heardItems context layers).map (·.1) =
      ((layers.filter (·.visible)).flatMap (·.items)).filter (isHeard context) := by
  rw [← map_fst_taggedItems, heardItems, List.filter_map]
  rfl

/-- A sound without a volume of its own is as loud as its file. -/
theorem isZero_loudness (media : MediaItem) :
    (loudness media).isZero = media.volume.any (·.isZero) := by
  have standard : Binary64.isZero 100 = false := by decide +kernel
  cases volume : media.volume with
  | none =>
      rw [loudness, volume, Option.getD_none, standard, Option.any_none]
  | some percent =>
      rw [loudness, volume, Option.getD_some, Option.any_some]

/-- An item that is passed over is not heard. -/
theorem not_isHeard_of_skipped (skipped : Skipped context item) : isHeard context item = false := by
  match skipped with
  | .unknown missing => simp [isHeard, missing]
  | .unsourced found missing => simp [isHeard, found, missing]
  | .fileless found source _ => simp [isHeard, found, source]
  | @Skipped.over _ _ media found kind instant =>
      have short : ¬0 < item.duration := Binary64.not_lt_of_le instant
      rcases source : context.sources.find? media.id with _ | _ | position
      all_goals simp [isHeard, found, source, short]
  | @Skipped.silent _ _ media found kind mute =>
      rw [isZero_loudness] at mute
      rcases source : context.sources.find? media.id with _ | _ | position
      all_goals cases muted : media.muted
      all_goals simp_all [isHeard]
  | @Skipped.wordless _ _ media _ found kind _ _ =>
      rcases source : context.sources.find? media.id with _ | _ | position
      all_goals simp [isHeard, found, source, kind]

/-! ## Ways back -/

/-- The stages that lead to a label from one that no stage defines. At each label the way leads
back through the only stage that defines it to the only label that this stage reads. -/
inductive Leads (stages : List Stage) : String → List Stage → String → Prop where
  | begun {name : String} (undefined : name ∉ definedLabels stages) : Leads stages name [] name
  | step {source middle name : String} {before : List Stage} {stage : Stage}
      (back : Leads stages source before middle) (reads : stage.inputs = [middle])
      (definer : (stages.filter fun definer => definer.output = name) = [stage]) :
      Leads stages source (before ++ [stage]) name

theorem mem_definedLabels_of_filter
    (definer : (stages.filter fun definer => definer.output = name) = [stage]) :
    name ∈ definedLabels stages := by
  have listed := List.mem_filter.mp (definer ▸ List.mem_singleton_self stage)
  exact List.mem_map.mpr ⟨stage, listed.1, by simpa using listed.2⟩

/-- A label leads back one way only. -/
theorem Leads.unique {source' : String} {chain' : List Stage}
    (leads : Leads stages source chain name) (leads' : Leads stages source' chain' name) :
    source = source' ∧ chain = chain' := by
  induction leads generalizing source' chain' with
  | begun undefined =>
      cases leads' with
      | begun => exact ⟨rfl, rfl⟩
      | step _ _ definer => exact absurd (mem_definedLabels_of_filter definer) undefined
  | step back reads definer ih =>
      cases leads' with
      | begun undefined => exact absurd (mem_definedLabels_of_filter definer) undefined
      | step back' reads' definer' =>
          obtain rfl := List.singleton_inj.mp (definer.symm.trans definer')
          obtain rfl := List.singleton_inj.mp (reads.symm.trans reads')
          obtain ⟨rfl, rfl⟩ := ih back'
          exact ⟨rfl, rfl⟩

/-- Where no label is defined twice, one stage defines the label of a stage. -/
theorem filter_defines_eq_singleton (distinct : (definedLabels stages).Nodup)
    (member : stage ∈ stages) :
    (stages.filter fun definer => definer.output = stage.output) = [stage] := by
  induction stages with
  | nil => contradiction
  | cons head rest ih =>
      obtain ⟨new, distinct⟩ := List.nodup_cons.mp distinct
      rcases List.mem_cons.mp member with rfl | later
      · rw [List.filter_cons_of_pos (by simp), List.filter_eq_nil_iff.mpr]
        intro other among same
        exact new (List.mem_map.mpr ⟨other, among, by simpa using same⟩)
      · have other : head.output ≠ stage.output := fun same =>
          new (List.mem_map.mpr ⟨stage, later, same.symm⟩)
        rw [List.filter_cons_of_neg (by simpa using other)]
        exact ih distinct later

/-- Linked stages that each read one label lead back from the last label to the first. -/
theorem Linked.leads {final : String} {before : List Stage}
    (linked : Linked Stage.carried? name chain final) (distinct : (definedLabels stages).Nodup)
    (listed : chain ⊆ stages) (single : ∀ stage ∈ chain, stage.inputs = stage.carried?.toList)
    (back : Leads stages source before name) : Leads stages source (before ++ chain) final := by
  induction linked generalizing before with
  | done =>
      rw [List.append_nil]
      exact back
  | @next name final stage rest taken onward ih =>
      have reads : stage.inputs = [name] := by
        rw [single stage List.mem_cons_self, taken, Option.toList_some]
      have definer := filter_defines_eq_singleton distinct (listed List.mem_cons_self)
      rw [List.append_cons before stage rest]
      apply ih
      · exact fun later among => listed (List.mem_cons_of_mem _ among)
      · exact fun later among => single later (List.mem_cons_of_mem _ among)
      · exact .step back reads definer

/-- No stage of a graph defines a stream of an input. -/
theorem Graph.not_isStream_of_defined {layers : List Layer} {graph : Graph}
    (compiled : Graph.ofLayers context layers = .ok graph)
    (defined : name ∈ definedLabels graph.stages) : ¬IsStream name := by
  obtain ⟨draft, items, equal⟩ := bind_eq_ok.mp compiled
  cases equal
  obtain ⟨tags, wired⟩ := wired_of_prefix (List.append_nil _).symm items
  obtain ⟨stage, member, rfl⟩ := List.mem_map.mp defined
  rcases Draft.mem_finish member with old | mix
  · exact wired.not_isStream (List.mem_map_of_mem old)
  · rw [mix]
    exact not_isStream_label "audio" "final"

/-! ## What stages do to a sound -/

/-- How loud a sound is after a stage. -/
def Stage.amplify : Stage → Binary64 → Binary64
  | .volume stage, gain => gain * stage.factor.nearest
  | .background _, gain | .trim _, gain | .scale _, gain | .overlay _, gain | .drawBox _, gain
  | .drawText _, gain | .delay _, gain | .mix _, gain => gain

/-- How loud a sound is after stages one after another. -/
def amplified (stages : List Stage) (gain : Binary64) : Binary64 :=
  stages.foldl (fun gain stage => stage.amplify gain) gain

/-- How many times as loud the sound of an asset is as its file. -/
def gainOf (media : MediaItem) : Binary64 :=
  (loudness media).quotient 100

/-- By how many milliseconds the sound of an item is put off. -/
def delayOf (item : TimelineItem) : Binary64 :=
  Binary64.greatest 0 item.startTime * 1000

/-- What stages make of a sound for an item: they cut it, put it off and make it as loud as its
asset. A stage that would change nothing may be left out. -/
structure Treats (item : TimelineItem) (media : MediaItem) (stages : List Stage) : Prop where
  timing : ∀ timing : Timing,
    retimed stages timing = (timing.cut (.real item.duration)).putOff (.real (delayOf item))
  gain : amplified stages 1 = gainOf media
  unchanged : (∀ stage, .volume stage ∉ stages) → gainOf media = 1
  prompt : (∀ stage, .delay stage ∉ stages) → delayOf item = 0

theorem delayOf_of_late (late : 0 < item.startTime) : delayOf item = item.startTime * 1000 := by
  rw [delayOf, Binary64.greatest, if_pos late]

theorem delayOf_of_early (early : ¬0 < item.startTime) : delayOf item = 0 := by
  rw [delayOf, Binary64.greatest, if_neg early]
  decide +kernel

/-- A sound that is put off by nothing stays as it is. -/
theorem Timing.putOff_zero (timing : Timing) : timing.putOff (.real 0) = timing := by
  funext time content
  apply propext
  simp only [putOff, Number.rank?, Binary64.rank?_of_toRat? Binary64.toRat?_zero,
    Option.some.injEq, Binary64.Rank.ofRat_inj]
  simp

/-- A sound is made as loud as its factor says. -/
theorem amplified_soundSteps {factor : Binary64} (branch source : String) :
    amplified (chainSteps tag branch source (soundSteps item factor)) 1 =
      if factor.equals 1 then 1 else factor := by
  by_cases unchanged : factor.equals 1 = true <;> by_cases late : 0 < item.startTime
  all_goals simp [soundSteps, unchanged, late, chainSteps, amplified, Stage.amplify,
    Number.nearest, Binary64.unit_mul]

/-- The steps of a sound do what its item and its asset ask for. -/
theorem treats_soundSteps (branch source : String) :
    Treats item media (chainSteps tag branch source (soundSteps item (gainOf media))) := by
  constructor
  · intro timing
    rw [retimed_soundSteps]
    split
    next late => rw [delayOf_of_late late]
    next early => rw [delayOf_of_early early, Timing.putOff_zero]
  · rw [amplified_soundSteps]
    split
    next unchanged => exact (Binary64.eq_one_of_equals unchanged).symm
    next => rfl
  · intro absent
    by_cases unchanged : (gainOf media).equals 1 = true
    · exact Binary64.eq_one_of_equals unchanged
    · by_cases late : 0 < item.startTime
      all_goals simp [soundSteps, unchanged, late, chainSteps] at absent
  · intro absent
    by_cases late : 0 < item.startTime
    · by_cases unchanged : (gainOf media).equals 1 = true
      all_goals simp [soundSteps, unchanged, late, chainSteps] at absent
    · exact delayOf_of_early late

/-! ## One item -/

/-- Holds of the stages that a sound goes through. -/
def Stage.isSound : Stage → Bool
  | .trim stage => stage.audio
  | .volume _ | .delay _ | .mix _ => true
  | .background _ | .scale _ | .overlay _ | .drawBox _ | .drawText _ => false

/-- The stages of a sound are stages of sound that each read one label. -/
theorem isSound_of_mem_chainSteps {factor : Binary64} {branch : String}
    (member : stage ∈ chainSteps tag branch source (soundSteps item factor)) :
    stage.isSound = true ∧ stage.inputs = stage.carried?.toList := by
  cases soundStage_of_mem_chainSteps member with
  | cut => exact ⟨rfl, rfl⟩
  | volume => exact ⟨rfl, rfl⟩
  | delay => exact ⟨rfl, rfl⟩

namespace Addition

/-- What a heard item adds is the chain of its sound. -/
theorem chained (addition : Addition context item tag draft next)
    (heard : isHeard context item = true) :
    ∃ media position, Heard context item media position ∧
      newStages draft next = chainSteps tag (label "audio" tag) (audioStream position)
        (soundSteps item (gainOf media)) ∧
      next.audioBranches = draft.audioBranches ++ [label "audio" tag] := by
  obtain ⟨media, position, heard'⟩ := isHeard_iff.mp heard
  cases addition with
  | skip reason => simp [not_isHeard_of_skipped reason] at heard
  | image sourced kind =>
      obtain rfl := Option.some_inj.mp (heard'.found.symm.trans sourced.found)
      simpa [kind] using heard'.kind
  | video sourced kind =>
      obtain rfl := Option.some_inj.mp (heard'.found.symm.trans sourced.found)
      simpa [kind] using heard'.kind
  | sound sourced kind _ _ scaled =>
      obtain rfl := Option.some_inj.mp (heard'.found.symm.trans sourced.found)
      cases heard'.source.symm.trans sourced.source
      cases scaled
      exact ⟨media, position, heard', newStages_append .., rfl⟩
  | text found _ kind =>
      obtain rfl := Option.some_inj.mp (heard'.found.symm.trans found)
      simpa [kind] using heard'.kind
  | boxedText found _ kind =>
      obtain rfl := Option.some_inj.mp (heard'.found.symm.trans found)
      simpa [kind] using heard'.kind

/-- What is not heard adds nothing to the sound. -/
theorem soundless (addition : Addition context item tag draft next)
    (number : item.duration ≠ .nan) (unheard : isHeard context item = false) :
    (newStages draft next).filter Stage.isSound = [] ∧
      next.audioBranches = draft.audioBranches := by
  cases addition with
  | skip => exact ⟨by rw [newStages_self, List.filter_nil], rfl⟩
  | image =>
      rw [Draft.overlay, List.append_assoc, newStages_append]
      exact ⟨rfl, rfl⟩
  | video _ _ _ _ cut =>
      subst cut
      rw [Draft.overlay, List.append_assoc, newStages_append]
      exact ⟨rfl, rfl⟩
  | @sound media position _ sourced kind audible lasting =>
      rw [isZero_loudness] at audible
      simp only [Bool.or_eq_true, not_or, Bool.not_eq_true] at audible
      have positive : 0 < item.duration := Binary64.lt_of_not_le number (by decide) lasting
      have heard : isHeard context item = true := by
        simp [isHeard, sourced.found, sourced.source, kind, audible, positive]
      simp [heard] at unheard
  | text =>
      rw [newStages_append]
      exact ⟨rfl, rfl⟩
  | boxedText =>
      rw [List.append_assoc, newStages_append]
      exact ⟨rfl, rfl⟩

end Addition

/-! ## All items -/

/-- Items add a branch for each of them that is heard. -/
theorem audioBranches_of_addItems (numbers : ∀ entry ∈ items, entry.1.duration ≠ .nan)
    (compiled : addItems context items draft = .ok next) :
    next.audioBranches = draft.audioBranches ++
      (items.filter fun entry => isHeard context entry.1).map fun entry =>
        label "audio" entry.2 := by
  induction items generalizing draft with
  | nil =>
      cases compiled
      simp
  | cons entry rest ih =>
      obtain ⟨middle, added, compiled⟩ := bind_eq_ok.mp compiled
      have addition := addition_of_addItem added
      rw [ih (fun entry member => numbers entry (List.mem_cons_of_mem _ member)) compiled]
      cases here : isHeard context entry.1 with
      | false =>
          rw [(addition.soundless (numbers entry List.mem_cons_self) here).2]
          simp [here]
      | true =>
          obtain ⟨media, position, -, -, branches⟩ := addition.chained here
          rw [branches]
          simp [here]

/-- What is taken as the sound of a film made of branches, with the stages that mix them. -/
inductive Mixes : List String → List Stage → Option String → Prop where
  | silent : Mixes [] [] none
  | single (branch : String) : Mixes [branch] [] (some branch)
  | several {branches : List String} {mix : Mix} (several : 2 ≤ branches.length)
      (inputs : mix.inputs = branches) : Mixes branches [.mix mix] (some mix.output)

/-- Finishing a draft mixes its branches and adds nothing else. -/
theorem Draft.mixes_finish (draft : Draft) :
    ∃ mix, draft.finish.stages = draft.stages ++ mix ∧ mix.filter Stage.isSound = mix ∧
      Mixes draft.finish.audioBranches mix draft.finish.outputs.audio := by
  match branches : draft.audioBranches with
  | [] =>
      simp only [Draft.finish, branches]
      exact ⟨[], rfl, rfl, .silent⟩
  | [branch] =>
      simp only [Draft.finish, branches]
      exact ⟨[], rfl, rfl, .single branch⟩
  | first :: second :: rest =>
      simp only [Draft.finish, branches]
      refine ⟨_, rfl, rfl, .several ?_ rfl⟩
      simp

/-- Holds of the stages of an item that is heard: they are the whole way back from its branch to
the stream of its asset, and do what the item and the asset ask for. -/
inductive Sounds (context : Context) (stages : List Stage) :
    TimelineItem × String → List Stage → Prop where
  | intro {entry : TimelineItem × String} {media : MediaItem} {position : Int}
      {chain : List Stage} (heard : Heard context entry.1 media position)
      (way : ∀ source before, Leads stages source before (label "audio" entry.2) ↔
        source = audioStream position ∧ before = chain)
      (treats : Treats entry.1 media chain) : Sounds context stages entry chain

/-- What is added for a heard item is its sound. -/
theorem AddedFor.sounds {layers : List Layer} {graph : Graph} {entry : TimelineItem × String}
    {added : List Stage} (compiled : Graph.ofLayers context layers = .ok graph)
    (heard : isHeard context entry.1 = true)
    (addedFor : AddedFor context (taggedItems layers) entry added) :
    Sounds context graph.stages entry (added.filter Stage.isSound) := by
  have wellFormed : graph.WellFormed := by
    obtain ⟨draft, items, equal⟩ := bind_eq_ok.mp compiled
    cases equal
    exact Draft.wellFormed_finish items
  have listed := (addedFor.infix_stages compiled).subset
  cases addedFor with
  | intro place reached compiledEntry =>
      obtain ⟨media, position, heard, chain, -⟩ := (addition_of_addItem compiledEntry).chained heard
      rw [chain] at listed ⊢
      have begun : audioStream position ∉ definedLabels graph.stages := fun defined =>
        Graph.not_isStream_of_defined compiled defined (isStream_audioStream position)
      have leads := (linked_soundSteps _ _).leads wellFormed.distinct listed
        (fun stage member => (isSound_of_mem_chainSteps member).2) (.begun begun)
      rw [List.filter_eq_self.mpr fun stage member => (isSound_of_mem_chainSteps member).1]
      refine .intro heard (fun source before => ⟨fun other => other.unique leads, ?_⟩)
        (treats_soundSteps _ _)
      rintro ⟨rfl, rfl⟩
      exact leads

/-- No two heard items have one branch. -/
theorem nodup_branches (context : Context) (layers : List Layer) :
    ((heardItems context layers).map fun entry => label "audio" entry.2).Nodup := by
  have tags : ((heardItems context layers).map (·.2)).Nodup :=
    (taggedItems_distinct layers).sublist (List.filter_sublist.map _)
  have injective : Function.Injective (label "audio") := fun _ _ same =>
    (label_injective (by decide) (by decide) same).2
  have distinct := tags.map injective
  rwa [List.map_map] at distinct

/-- A graph that mixes the sounds of the items that are heard. -/
structure Graph.MixesSounds (context : Context) (layers : List Layer) (graph : Graph) : Prop where
  /-- The heard items are taken layer by layer, and from a layer item by item. -/
  items : (heardItems context layers).map (·.1) =
    ((layers.filter (·.visible)).flatMap (·.items)).filter (isHeard context)
  /-- Each heard item has one branch, and there are no others. -/
  branches : graph.audioBranches =
    (heardItems context layers).map fun entry => label "audio" entry.2
  distinct : graph.audioBranches.Nodup
  /-- The stages of sound are those of the heard items, one after another, and what mixes their
  branches at the end of the graph. -/
  chains : ∃ (chains : List (List Stage)) (mix : List Stage),
    graph.stages.filter Stage.isSound = chains.flatten ++ mix ∧ mix <:+ graph.stages ∧
      List.Forall₂ (Sounds context graph.stages) (heardItems context layers) chains ∧
      Mixes graph.audioBranches mix graph.outputs.audio

/-- Every compiled graph mixes the sounds of all items that are heard, each once and in the order
of painting, if the durations of the items are numbers. -/
theorem Graph.mixesSounds_of_layers {layers : List Layer} {graph : Graph}
    (compiled : Graph.ofLayers context layers = .ok graph)
    (numbers : ∀ layer ∈ layers, ∀ item ∈ layer.items, item.duration ≠ .nan) :
    graph.MixesSounds context layers := by
  have numbers : ∀ entry ∈ taggedItems layers, entry.1.duration ≠ .nan := by
    intro entry member
    have listed : entry.1 ∈ (taggedItems layers).map (·.1) := List.mem_map_of_mem member
    rw [map_fst_taggedItems] at listed
    obtain ⟨layer, visible, item⟩ := List.mem_flatMap.mp listed
    exact numbers layer (List.mem_filter.mp visible).1 _ item
  obtain ⟨draft, added, equal⟩ := bind_eq_ok.mp compiled
  obtain ⟨groups, sounds, all⟩ := exists_groups_of_addItems
    (fun entry member draft next (addition : Addition context entry.1 entry.2 draft next)
      unheard => (addition.soundless (numbers entry member) unheard).1) [] rfl added
  have chains : List.Forall₂ (Sounds context graph.stages) (heardItems context layers)
      (groups.map fun added => added.filter Stage.isSound) := by
    refine List.forall₂_map_right_iff.mpr (all.imp ?_)
    exact fun entry added ⟨heard, addedFor⟩ => addedFor.sounds compiled heard
  have branches : draft.finish.audioBranches =
      (heardItems context layers).map fun entry => label "audio" entry.2 :=
    audioBranches_of_addItems numbers added
  cases equal
  obtain ⟨mix, stages, kept, mixes⟩ := draft.mixes_finish
  refine ⟨map_fst_heardItems context layers, branches, branches ▸ nodup_branches context layers,
    _, mix, ?_, ⟨_, stages.symm⟩, chains, mixes⟩
  rw [stages, List.filter_append, sounds, kept]
  rfl

/-- Of the sample layers a music and a voice are heard and mixed, the music first. -/
theorem mixesSounds_sampleLayers :
    ∃ graph, Graph.ofLayers sampleContext sampleLayers = .ok graph ∧
      (heardItems sampleContext sampleLayers).map (·.1.mediaId) = ["music", "voice"] ∧
      (∀ layer ∈ sampleLayers, ∀ item ∈ layer.items, item.duration ≠ .nan) ∧
      graph.MixesSounds sampleContext sampleLayers := by
  have compiled : (Graph.ofLayers sampleContext sampleLayers).toOption.isSome := by decide +kernel
  obtain ⟨graph, compiled⟩ := Option.isSome_iff_exists.mp compiled
  have compiled := mem_toOption.mp compiled
  have numbers : ∀ layer ∈ sampleLayers, ∀ item ∈ layer.items, item.duration ≠ .nan := by
    decide +kernel
  exact ⟨graph, compiled, by decide +kernel, numbers,
    Graph.mixesSounds_of_layers compiled numbers⟩

end Filter

end Montage
