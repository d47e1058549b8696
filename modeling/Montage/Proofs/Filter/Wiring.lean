import Montage.Proofs.Filter.Addition

/-!
# Well-formed graphs

A graph is well formed when every label is defined once, before it is read, and read once unless a
command takes it. The proof carries one balance through the compilation: the labels that stages
define are those that stages read from one another, together with those still open. The open ones
are the picture drawn so far and the branches of sound.
-/

namespace Montage.Filter

variable {context : Context} {item : TimelineItem} {tag : String} {tags : List String}
variable {draft next : Draft} {known : List String} {stages added : List Stage}

/-- The labels that a command takes from a graph. -/
def Outputs.labels (outputs : Outputs) : List String :=
  outputs.video :: outputs.audio.toList

/-- The labels that stages define, in order. -/
def definedLabels (stages : List Stage) : List String :=
  stages.map Stage.output

/-- The labels that stages read, in order and with repetitions. -/
def readLabels (stages : List Stage) : List String :=
  stages.flatMap Stage.inputs

/-- A graph whose stages are joined by labels without a gap or a conflict. -/
structure Graph.WellFormed (graph : Graph) : Prop where
  /-- No two stages define one label. -/
  distinct : (definedLabels graph.stages).Nodup
  /-- A stage reads streams of inputs and labels of stages before it. -/
  ordered : ∀ before stage after, graph.stages = before ++ stage :: after →
    ∀ input ∈ stage.inputs, IsStream input ∨ input ∈ definedLabels before
  /-- Of the labels that no command takes, each is read at one place of one stage. -/
  readOnce : ∀ name ∈ definedLabels graph.stages, name ∉ graph.outputs.labels →
    (readLabels graph.stages).count name = 1
  /-- No stage reads a label that a command takes. -/
  unread : ∀ name ∈ graph.outputs.labels, name ∉ readLabels graph.stages
  /-- A command takes only labels that a stage defines. -/
  supplied : ∀ name ∈ graph.outputs.labels, name ∈ definedLabels graph.stages

/-! ## Labels of stages -/

@[simp] theorem definedLabels_append (left right : List Stage) :
    definedLabels (left ++ right) = definedLabels left ++ definedLabels right :=
  List.map_append

@[simp] theorem readLabels_append (left right : List Stage) :
    readLabels (left ++ right) = readLabels left ++ readLabels right :=
  List.flatMap_append

open Classical in
/-- The labels that stages read from one another. -/
noncomputable def links (stages : List Stage) : List String :=
  (readLabels stages).filter fun name => ¬IsStream name

@[simp] theorem links_append (left right : List Stage) :
    links (left ++ right) = links left ++ links right := by
  simp [links]

theorem mem_links {name : String} :
    name ∈ links stages ↔ name ∈ readLabels stages ∧ ¬IsStream name := by
  simp [links]

theorem count_links {name : String} (internal : ¬IsStream name) :
    (links stages).count name = (readLabels stages).count name := by
  classical
  exact List.count_filter (by simpa using internal)

/-- Stages that read only streams of inputs, known labels and labels of stages before them. -/
def Ordered : List String → List Stage → Prop
  | _, [] => True
  | known, stage :: rest =>
      (∀ input ∈ stage.inputs, IsStream input ∨ input ∈ known) ∧
        Ordered (stage.output :: known) rest

namespace Ordered

theorem mono {more : List String} (ordered : Ordered known stages) (subset : known ⊆ more) :
    Ordered more stages := by
  induction stages generalizing known more with
  | nil => trivial
  | cons stage rest ih =>
      refine ⟨fun input member => (ordered.1 input member).imp_right fun old => subset old, ?_⟩
      exact ih ordered.2 (List.cons_subset_cons _ subset)

theorem append (left : Ordered known stages)
    (right : Ordered (definedLabels stages ++ known) added) : Ordered known (stages ++ added) := by
  induction stages generalizing known with
  | nil => exact right
  | cons stage rest ih =>
      refine ⟨left.1, ih left.2 (right.mono ?_)⟩
      intro name member
      simp only [definedLabels, List.map_cons, List.cons_append, List.mem_cons,
        List.mem_append] at member ⊢
      tauto

/-- A stage reads only known labels and labels of stages before it. -/
theorem earlier {before after : List Stage} {stage : Stage} {input : String}
    (ordered : Ordered known (before ++ stage :: after)) (read : input ∈ stage.inputs) :
    IsStream input ∨ input ∈ known ∨ input ∈ definedLabels before := by
  induction before generalizing known with
  | nil => exact (ordered.1 input read).imp_right .inl
  | cons head rest ih =>
      rcases ih ordered.2 with stream | member | earlier
      · exact .inl stream
      · rcases List.mem_cons.mp member with rfl | old
        · exact .inr (.inr List.mem_cons_self)
        · exact .inr (.inl old)
      · exact .inr (.inr (List.mem_cons_of_mem _ earlier))

end Ordered

/-! ## Names of labels -/

/-- The kinds of labels that carry the tag of an item. -/
def itemKinds : List String := ["item", "trim", "atrim", "avol", "audio"]

/-- The kinds of labels that carry the number of a picture. -/
def pictureKinds : List String := ["overlay", "bgbox", "text"]

/-- A label of an item with one of the tags, or of a picture with a number in a range. -/
inductive Named (tags : List String) (first bound : Nat) : String → Prop where
  | item {kind tag : String} (known : kind ∈ itemKinds) (member : tag ∈ tags) :
      Named tags first bound (label kind tag)
  | picture {kind : String} {number : Nat} (known : kind ∈ pictureKinds)
      (atLeast : first ≤ number) (below : number < bound) :
      Named tags first bound (label kind (toString number))

/-- Labels of known kinds are equal only if both parts are. -/
theorem label_injective_of_kinds {kind kind' tag tag' : String}
    (known : kind ∈ itemKinds ++ pictureKinds) (known' : kind' ∈ itemKinds ++ pictureKinds)
    (equal : label kind tag = label kind' tag') : kind = kind' ∧ tag = tag' := by
  have plain : ∀ kind ∈ itemKinds ++ pictureKinds, '_' ∉ kind.toList := by decide
  exact label_injective (plain kind known) (plain kind' known') equal

theorem label_ne_of_kinds {kind kind' tag tag' : String}
    (known : kind ∈ itemKinds ++ pictureKinds) (known' : kind' ∈ itemKinds ++ pictureKinds)
    (differ : kind ≠ kind') : label kind tag ≠ label kind' tag' :=
  fun equal => differ (label_injective_of_kinds known known' equal).1

theorem not_mem_pictureKinds {kind : String} (known : kind ∈ itemKinds) :
    kind ∉ pictureKinds := by
  have apart : ∀ kind ∈ itemKinds, kind ∉ pictureKinds := by decide
  exact apart kind known

namespace Named

variable {first middle bound : Nat} {name : String}

/-- Labels with other tags and later numbers are other labels. -/
theorem disjoint {tags' : List String} {middle' : Nat} (left : Named tags first middle name)
    (right : Named tags' middle' bound name) (apart : ∀ tag ∈ tags, tag ∉ tags')
    (later : middle ≤ middle') : False := by
  generalize equal : name = name' at right
  cases left with
  | item known member =>
      cases right with
      | item known' member' =>
          obtain ⟨-, rfl⟩ := label_injective_of_kinds (List.mem_append_left _ known)
            (List.mem_append_left _ known') equal
          exact apart _ member member'
      | picture known' =>
          obtain ⟨rfl, -⟩ := label_injective_of_kinds (List.mem_append_left _ known)
            (List.mem_append_right _ known') equal
          exact not_mem_pictureKinds known known'
  | picture known atLeast below =>
      cases right with
      | item known' =>
          obtain ⟨rfl, -⟩ := label_injective_of_kinds (List.mem_append_right _ known)
            (List.mem_append_left _ known') equal
          exact not_mem_pictureKinds known' known
      | picture known' atLeast' below' =>
          obtain ⟨-, numbers⟩ := label_injective_of_kinds (List.mem_append_right _ known)
            (List.mem_append_right _ known') equal
          have numbers := Nat.repr_inj.mp numbers
          omega

theorem mono {more : List String} {first' bound' : Nat} (named : Named tags first bound name)
    (subset : tags ⊆ more) (lower : first' ≤ first) (upper : bound ≤ bound') :
    Named more first' bound' name := by
  cases named with
  | item known member => exact .item known (subset member)
  | picture known atLeast below => exact .picture known (lower.trans atLeast) (below.trans_le upper)

theorem not_isStream (named : Named tags first bound name) : ¬IsStream name := by
  cases named with
  | item => exact not_isStream_label _ _
  | picture => exact not_isStream_label _ _

theorem ne_matteLabel (named : Named tags first bound name) : name ≠ matteLabel := by
  intro equal
  have underscore : '_' ∈ name.toList := by
    cases named with
    | item => simp
    | picture => simp
  rw [equal] at underscore
  exact absurd underscore (by decide)

theorem ne_mixLabel (named : Named tags first bound name) (unused : "final" ∉ tags) :
    name ≠ mixLabel := by
  have mix : mixLabel = label "audio" "final" := by decide
  rw [mix]
  intro equal
  cases named with
  | item known member =>
      obtain ⟨-, rfl⟩ :=
        label_injective_of_kinds (List.mem_append_left _ known) (by decide) equal
      exact unused member
  | picture known =>
      obtain ⟨rfl, -⟩ :=
        label_injective_of_kinds (List.mem_append_right _ known) (by decide) equal
      exact absurd known (by decide)

end Named

/-! ## Growing drafts -/

/-- How a draft grows by the stages of one item. -/
structure Draft.Growth (tag : String) (draft next : Draft) (added : List Stage) : Prop where
  stages : next.stages = draft.stages ++ added
  pictures : draft.pictures ≤ next.pictures
  named : ∀ name ∈ definedLabels added, Named [tag] draft.pictures next.pictures name
  distinct : (definedLabels added).Nodup
  ordered : Ordered [draft.video] added
  /-- What was open or is defined anew is read by the new stages or open afterwards. -/
  balanced : (draft.video :: draft.audioBranches ++ definedLabels added).Perm
    (links added ++ next.video :: next.audioBranches)

/-- A draft whose labels are joined without a gap or a conflict. -/
structure Draft.Wired (tags : List String) (draft : Draft) : Prop where
  named : ∀ name ∈ definedLabels draft.stages, name = matteLabel ∨ Named tags 0 draft.pictures name
  distinct : (definedLabels draft.stages).Nodup
  ordered : Ordered [] draft.stages
  /-- A label is read by a stage or open, and never both. -/
  balanced : (definedLabels draft.stages).Perm
    (links draft.stages ++ draft.video :: draft.audioBranches)

namespace Draft

theorem wired_start (context : Context) : (Draft.start context).Wired [] where
  named := by simp [Draft.start, definedLabels, Stage.output]
  distinct := by simp [Draft.start, definedLabels]
  ordered := by simp [Draft.start, Ordered, Stage.inputs]
  balanced := by simp [Draft.start, definedLabels, links, readLabels, Stage.inputs, Stage.output]

namespace Wired

theorem not_isStream (wired : draft.Wired tags) {name : String}
    (member : name ∈ definedLabels draft.stages) : ¬IsStream name := by
  rcases wired.named name member with rfl | named
  · exact not_isStream_matteLabel
  · exact named.not_isStream

/-- Every open label is defined by a stage. -/
theorem open_defined (wired : draft.Wired tags) {name : String}
    (member : name ∈ draft.video :: draft.audioBranches) :
    name ∈ definedLabels draft.stages :=
  wired.balanced.mem_iff.mpr (List.mem_append_right _ member)

theorem video_not_isStream (wired : draft.Wired tags) : ¬IsStream draft.video :=
  wired.not_isStream (wired.open_defined List.mem_cons_self)

/-- A wired draft stays wired when an item with a new tag is added. -/
theorem grow (wired : draft.Wired tags) (growth : draft.Growth tag next added)
    (new : tag ∉ tags) : next.Wired (tag :: tags) where
  named := by
    intro name member
    rw [growth.stages, definedLabels_append, List.mem_append] at member
    rcases member with old | fresh
    · exact (wired.named name old).imp_right fun named =>
        named.mono (List.subset_cons_self tag tags) le_rfl growth.pictures
    · exact .inr ((growth.named name fresh).mono (by simp) (Nat.zero_le _) le_rfl)
  distinct := by
    rw [growth.stages, definedLabels_append, List.nodup_append]
    refine ⟨wired.distinct, growth.distinct, ?_⟩
    rintro name old _ fresh rfl
    have named := growth.named name fresh
    rcases wired.named name old with matte | earlier
    · exact named.ne_matteLabel matte
    · refine earlier.disjoint named (fun used member => ?_) le_rfl
      exact fun equal => new (List.mem_singleton.mp equal ▸ member)
  ordered := by
    rw [growth.stages]
    refine wired.ordered.append (growth.ordered.mono ?_)
    simpa using wired.open_defined List.mem_cons_self
  balanced := by
    rw [growth.stages, definedLabels_append, links_append]
    -- What was open before is what the new stages may read, so the two balances add up.
    have old := wired.balanced.append_right (definedLabels added)
    have new := growth.balanced.append_left (links draft.stages)
    simp only [List.append_assoc] at old new ⊢
    exact old.trans new

end Wired

/-! ## One lemma for each kind of addition -/

theorem growth_refl (draft : Draft) (tag : String) : draft.Growth tag draft [] where
  stages := by simp
  pictures := le_rfl
  named := by simp [definedLabels]
  distinct := by simp [definedLabels]
  ordered := trivial
  balanced := by simp [definedLabels, links, readLabels]

theorem growth_image {source : String} (rect : PixelRect) (item : TimelineItem) (tag : String)
    (stream : IsStream source) (internal : ¬IsStream draft.video) :
    ∃ added, draft.Growth tag (draft.overlay [] source rect item tag) added := by
  refine ⟨_, List.append_assoc _ _ _, Nat.le_succ _, ?_, ?_, ?_, ?_⟩
  · simp only [definedLabels, List.nil_append, List.map_cons, List.map_nil, Stage.output,
      List.forall_mem_cons]
    refine ⟨.item (by decide) (by simp), .picture (by decide) le_rfl (Nat.lt_succ_self _), ?_⟩
    simp
  · simp (disch := decide) [definedLabels, Stage.output, label_ne_of_kinds]
  · simp [Ordered, Stage.inputs, Stage.output, stream]
  · refine List.perm_iff_count.mpr fun name => ?_
    simp [definedLabels, links, readLabels, Stage.inputs, Stage.output, Draft.overlay, stream,
      internal, List.count_cons]
    omega

theorem growth_video {trim : Trim} {source : String} (rect : PixelRect) (item : TimelineItem)
    (tag : String) (stream : IsStream source) (internal : ¬IsStream draft.video)
    (input : trim.input = source) (output : trim.output = label "trim" tag) :
    ∃ added, draft.Growth tag
      (draft.overlay [.trim trim] (label "trim" tag) rect item tag) added := by
  refine ⟨_, List.append_assoc _ _ _, Nat.le_succ _, ?_, ?_, ?_, ?_⟩
  · simp only [definedLabels, List.cons_append, List.nil_append, List.map_cons, List.map_nil,
      Stage.output, output, List.forall_mem_cons]
    refine ⟨.item (by decide) (by simp), .item (by decide) (by simp),
      .picture (by decide) le_rfl (Nat.lt_succ_self _), ?_⟩
    simp
  · simp (disch := decide) [definedLabels, Stage.output, output, label_ne_of_kinds]
  · simp [Ordered, Stage.inputs, Stage.output, input, output, stream]
  · refine List.perm_iff_count.mpr fun name => ?_
    simp [definedLabels, links, readLabels, Stage.inputs, Stage.output, Draft.overlay, input,
      output, stream, internal, List.count_cons]
    omega

theorem growth_text {drawText : DrawText} (tag : String) (internal : ¬IsStream draft.video)
    (input : drawText.input = draft.video)
    (output : drawText.output = label "text" (toString draft.pictures)) :
    draft.Growth tag
      { draft with
        stages := draft.stages ++ [.drawText drawText]
        video := drawText.output
        pictures := draft.pictures + 1 } [.drawText drawText] where
  stages := rfl
  pictures := Nat.le_succ _
  named := by
    simp only [definedLabels, List.map_cons, List.map_nil, Stage.output, output,
      List.forall_mem_cons]
    exact ⟨.picture (by decide) le_rfl (Nat.lt_succ_self _), by simp⟩
  distinct := by simp [definedLabels]
  ordered := by simp [Ordered, Stage.inputs, input]
  balanced := by
    refine List.perm_iff_count.mpr fun name => ?_
    simp [definedLabels, links, readLabels, Stage.inputs, Stage.output, input, internal,
      List.count_cons]

theorem growth_boxedText {drawBox : DrawBox} {drawText : DrawText} (tag : String)
    (internal : ¬IsStream draft.video) (boxInput : drawBox.input = draft.video)
    (boxOutput : drawBox.output = label "bgbox" (toString draft.pictures))
    (input : drawText.input = drawBox.output)
    (output : drawText.output = label "text" (toString (draft.pictures + 1))) :
    draft.Growth tag
      { draft with
        stages := draft.stages ++ [.drawBox drawBox] ++ [.drawText drawText]
        video := drawText.output
        pictures := draft.pictures + 1 + 1 } [.drawBox drawBox, .drawText drawText] where
  stages := List.append_assoc _ _ _
  pictures := by simp only; omega
  named := by
    simp only [definedLabels, List.map_cons, List.map_nil, Stage.output, boxOutput, output,
      List.forall_mem_cons]
    exact ⟨.picture (by decide) le_rfl (by omega),
      .picture (by decide) (Nat.le_succ _) (Nat.lt_succ_self _), by simp⟩
  distinct := by
    simp (disch := decide) [definedLabels, Stage.output, boxOutput, output, label_ne_of_kinds]
  ordered := by simp [Ordered, Stage.inputs, Stage.output, boxInput, input]
  balanced := by
    refine List.perm_iff_count.mpr fun name => ?_
    simp [definedLabels, links, readLabels, Stage.inputs, Stage.output, boxInput, boxOutput, input,
      internal, List.count_cons]
    omega

/-! ## Sounds -/

/-- Steps that read one label and define one label. -/
def Unary (steps : List (String × (String → String → Stage))) : Prop :=
  ∀ step ∈ steps, ∀ input output,
    (step.2 input output).inputs = [input] ∧ (step.2 input output).output = output

namespace Unary

variable {steps : List (String × (String → String → Stage))}

/-- A chain defines a label for each step but the last, and then its branch. -/
theorem definedLabels_chainSteps (unary : Unary steps) (tag branch source : String)
    (nonempty : steps ≠ []) :
    definedLabels (chainSteps tag branch source steps) =
      (steps.dropLast.map fun step => label step.1 tag) ++ [branch] := by
  fun_induction chainSteps tag branch source steps with
  | case1 => contradiction
  | case2 source kind make => simp [definedLabels, (unary _ List.mem_cons_self _ _).2]
  | case3 source kind make rest more target ih =>
      have tail := ih (fun step member => unary step (List.mem_cons_of_mem _ member)) more
      rw [List.dropLast_cons_of_ne_nil more, List.map_cons, List.cons_append, ← tail]
      exact congrArg (· :: _) (unary _ List.mem_cons_self _ _).2

/-- A chain reads its source and then every label that it defines but the branch. -/
theorem readLabels_chainSteps (unary : Unary steps) (tag branch source : String)
    (nonempty : steps ≠ []) :
    readLabels (chainSteps tag branch source steps) =
      source :: steps.dropLast.map fun step => label step.1 tag := by
  fun_induction chainSteps tag branch source steps with
  | case1 => contradiction
  | case2 source kind make => simp [readLabels, (unary _ List.mem_cons_self _ _).1]
  | case3 source kind make rest more target ih =>
      have tail := ih (fun step member => unary step (List.mem_cons_of_mem _ member)) more
      rw [List.dropLast_cons_of_ne_nil more, List.map_cons, ← tail]
      exact congrArg (· ++ _) (unary _ List.mem_cons_self _ _).1

theorem ordered_chainSteps {source : String} (unary : Unary steps) (tag branch : String)
    (known : List String) (available : IsStream source ∨ source ∈ known) :
    Ordered known (chainSteps tag branch source steps) := by
  fun_induction chainSteps tag branch source steps generalizing known with
  | case1 => trivial
  | case2 source kind make =>
      refine ⟨?_, trivial⟩
      simpa [(unary _ List.mem_cons_self _ _).1] using available
  | case3 source kind make rest more target ih =>
      have head := unary _ List.mem_cons_self source target
      refine ⟨?_, ih (fun step member => unary step (List.mem_cons_of_mem _ member)) _ ?_⟩
      · simpa [head.1] using available
      · simp [head.2]

end Unary

theorem unary_soundSteps (item : TimelineItem) (factor : Binary64) :
    Unary (soundSteps item factor) := by
  intro step member input output
  simp only [soundSteps, List.mem_append, List.mem_singleton] at member
  rcases member with (rfl | volume) | delay
  · exact ⟨rfl, rfl⟩
  · split at volume <;> simp_all [Stage.inputs, Stage.output]
  · split at delay <;> simp_all [Stage.inputs, Stage.output]

/-- The last step defines the branch, so only a cut and a loudness have labels of their own. -/
theorem dropLast_soundSteps (item : TimelineItem) (factor : Binary64) :
    ((soundSteps item factor).dropLast.map (·.1)).Sublist ["atrim", "avol"] := by
  simp only [soundSteps]
  split <;> split <;> simp

theorem growth_sound {position : Int} {factor : Binary64} (item : TimelineItem) (tag : String) :
    draft.Growth tag
      { draft with
        stages := draft.stages ++
          chainSteps tag (label "audio" tag) (audioStream position) (soundSteps item factor)
        audioBranches := draft.audioBranches ++ [label "audio" tag] }
      (chainSteps tag (label "audio" tag) (audioStream position) (soundSteps item factor)) := by
  have unary := unary_soundSteps item factor
  have nonempty : soundSteps item factor ≠ [] := by simp [soundSteps]
  have defined := unary.definedLabels_chainSteps tag (label "audio" tag)
    (audioStream position) nonempty
  have read := unary.readLabels_chainSteps tag (label "audio" tag)
    (audioStream position) nonempty
  have sublist : (definedLabels (chainSteps tag (label "audio" tag) (audioStream position)
      (soundSteps item factor))).Sublist
      [label "atrim" tag, label "avol" tag, label "audio" tag] := by
    have kinds := ((dropLast_soundSteps item factor).map fun kind => label kind tag)
    have labels := kinds.append_right [label "audio" tag]
    rw [List.map_map] at labels
    exact defined ▸ labels
  refine ⟨rfl, le_rfl, ?_, ?_, ?_, ?_⟩
  · intro name member
    have among := sublist.subset member
    simp only [List.mem_cons, List.not_mem_nil, or_false] at among
    rcases among with rfl | rfl | rfl
    all_goals exact .item (by decide) (by simp)
  · refine sublist.nodup ?_
    simp (disch := decide) [label_ne_of_kinds]
  · exact unary.ordered_chainSteps _ _ _ (.inl (isStream_audioStream position))
  · have linked : links (chainSteps tag (label "audio" tag) (audioStream position)
        (soundSteps item factor)) =
        (soundSteps item factor).dropLast.map fun step => label step.1 tag := by
      have external := isStream_audioStream position
      rw [links, read, List.filter_cons_of_neg (by simpa using external),
        List.filter_eq_self.mpr]
      intro name member
      obtain ⟨step, -, rfl⟩ := List.mem_map.mp member
      simp
    rw [defined, linked]
    refine List.perm_iff_count.mpr fun name => ?_
    simp [List.count_cons]
    omega

/-- Whatever an item adds, a wired draft grows by it. -/
theorem Wired.growth (wired : draft.Wired tags) (addition : Addition context item tag draft next) :
    ∃ added, draft.Growth tag next added := by
  have internal := wired.video_not_isStream
  cases addition with
  | skip => exact ⟨[], growth_refl draft tag⟩
  | image => exact growth_image _ item tag (isStream_videoStream _) internal
  | video _ _ _ _ cut =>
      subst cut
      exact growth_video _ item tag (isStream_videoStream _) internal rfl rfl
  | sound => exact ⟨_, growth_sound item tag⟩
  | text _ _ _ input output => exact ⟨_, growth_text tag internal input output⟩
  | boxedText _ _ _ boxInput boxOutput input output =>
      exact ⟨_, growth_boxedText tag internal boxInput boxOutput input output⟩

/-- Items with tags of their own keep a draft wired. -/
theorem Wired.addItems {items : List (TimelineItem × String)} (wired : draft.Wired tags)
    (compiled : addItems context items draft = .ok next)
    (distinct : (items.map (·.2)).Nodup) (new : ∀ entry ∈ items, entry.2 ∉ tags) :
    ∃ tags', next.Wired tags' ∧ ∀ tag ∈ tags', tag ∈ tags ∨ tag ∈ items.map (·.2) := by
  induction items generalizing draft tags with
  | nil =>
      cases compiled
      exact ⟨tags, wired, fun tag => .inl⟩
  | cons entry rest ih =>
      obtain ⟨item, tag⟩ := entry
      obtain ⟨middle, added, compiled⟩ := bind_eq_ok.mp compiled
      obtain ⟨stages, growth⟩ := wired.growth (addition_of_addItem added)
      have distinct := List.nodup_cons.mp distinct
      obtain ⟨tags', result, origin⟩ :=
        ih (wired.grow growth (new _ List.mem_cons_self)) compiled distinct.2 (by
          intro entry member used
          rcases List.mem_cons.mp used with equal | used
          · exact distinct.1 (List.mem_map.mpr ⟨entry, member, equal⟩)
          · exact new entry (List.mem_cons_of_mem _ member) used)
      refine ⟨tags', result, fun tag member => ?_⟩
      rcases origin tag member with used | later
      · rcases List.mem_cons.mp used with rfl | used
        · exact .inr List.mem_cons_self
        · exact .inl used
      · exact .inr (List.mem_cons_of_mem _ later)

end Draft

/-! ## Tags -/

/-- Every item has a tag of its own. -/
theorem taggedItems_distinct (layers : List Layer) :
    ((taggedItems layers).map (·.2)).Nodup := by
  have positions {α : Type} (values : List α) :
      values.zipIdx.Pairwise fun left right => left.2 ≠ right.2 := by
    refine List.pairwise_map.mp ?_
    rw [List.zipIdx_map_snd]
    exact List.nodup_range'
  rw [taggedItems, List.map_flatMap, List.nodup_flatMap]
  constructor
  · rintro ⟨layer, layerPosition⟩ -
    rw [List.map_map]
    refine List.pairwise_map.mpr ((positions layer.items).imp ?_)
    intro left right apart equal
    exact apart (itemTag_injective equal).2
  · refine (positions _).imp ?_
    rintro ⟨layer, layerPosition⟩ ⟨layer', layerPosition'⟩ apart tag left right
    obtain ⟨entry, inLeft, rfl⟩ := List.mem_map.mp left
    obtain ⟨⟨item, itemPosition⟩, -, rfl⟩ := List.mem_map.mp inLeft
    obtain ⟨entry', inRight, equal⟩ := List.mem_map.mp right
    obtain ⟨⟨item', itemPosition'⟩, -, rfl⟩ := List.mem_map.mp inRight
    exact apart (itemTag_injective equal).1.symm

theorem final_not_mem_tags (layers : List Layer) : "final" ∉ (taggedItems layers).map (·.2) := by
  intro member
  obtain ⟨entry, member, equal⟩ := List.mem_map.mp member
  obtain ⟨⟨layer, layerPosition⟩, -, member⟩ := List.mem_flatMap.mp member
  obtain ⟨⟨item, itemPosition⟩, -, rfl⟩ := List.mem_map.mp member
  exact itemTag_ne_final layerPosition itemPosition equal

/-! ## Finished graphs -/

variable {graph : Graph}

/-- A graph is well formed if what its stages define is read by a stage or taken by a command. -/
theorem Graph.wellFormed_of_balanced (distinct : (definedLabels graph.stages).Nodup)
    (ordered : Ordered [] graph.stages)
    (internal : ∀ name ∈ definedLabels graph.stages, ¬IsStream name)
    (balanced : (definedLabels graph.stages).Perm (links graph.stages ++ graph.outputs.labels)) :
    graph.WellFormed where
  distinct := distinct
  ordered before stage after equal input read := by
    rw [equal] at ordered
    simpa using ordered.earlier read
  readOnce name member untaken := by
    have total := balanced.count_eq name
    rw [List.count_append, List.count_eq_zero_of_not_mem untaken, count_links (internal name member),
      List.count_eq_one_of_mem distinct member] at total
    exact total.symm
  unread name taken read := by
    have member := balanced.mem_iff.mpr (List.mem_append_right _ taken)
    have linked := mem_links.mpr ⟨read, internal name member⟩
    exact List.disjoint_of_nodup_append (balanced.nodup_iff.mp distinct) linked taken
  supplied name taken := balanced.mem_iff.mpr (List.mem_append_right _ taken)

/-- A wired draft with at most one branch of sound is a well-formed graph as it stands. -/
theorem Draft.Wired.wellFormed_unmixed (wired : draft.Wired tags) (audio : Option String)
    (branches : draft.audioBranches = audio.toList) :
    Graph.WellFormed
      { stages := draft.stages
        outputs := { video := draft.video, audio := audio }
        audioBranches := draft.audioBranches } := by
  apply Graph.wellFormed_of_balanced
  · exact wired.distinct
  · exact wired.ordered
  · exact fun name => wired.not_isStream
  · rw [Outputs.labels, ← branches]
    exact wired.balanced

/-- A wired draft with a mix of its branches behind it is a well-formed graph. -/
theorem Draft.Wired.wellFormed_mixed (wired : draft.Wired tags) (unused : "final" ∉ tags) :
    Graph.WellFormed
      { stages := draft.stages ++ [.mix { inputs := draft.audioBranches, output := mixLabel }]
        outputs := { video := draft.video, audio := some mixLabel }
        audioBranches := draft.audioBranches } := by
  have mixNew : mixLabel ∉ definedLabels draft.stages := by
    intro member
    rcases wired.named mixLabel member with matte | named
    · exact absurd matte (by decide)
    · exact named.ne_mixLabel unused rfl
  have mixInternal : ¬IsStream mixLabel := not_isStream_label "audio" "final"
  have branchesDefined : ∀ branch ∈ draft.audioBranches, branch ∈ definedLabels draft.stages :=
    fun branch member => wired.open_defined (List.mem_cons_of_mem _ member)
  have mixDefines : definedLabels
      [.mix { inputs := draft.audioBranches, output := mixLabel }] = [mixLabel] := rfl
  apply Graph.wellFormed_of_balanced
  · rw [definedLabels_append, mixDefines]
    simpa [List.nodup_append] using ⟨wired.distinct, fun name member equal =>
      mixNew (equal ▸ member)⟩
  · refine wired.ordered.append ⟨fun input member => .inr ?_, trivial⟩
    rw [List.append_nil]
    exact branchesDefined input member
  · intro name member
    rw [definedLabels_append, mixDefines, List.mem_append, List.mem_singleton] at member
    rcases member with old | rfl
    · exact wired.not_isStream old
    · exact mixInternal
  · have mixReads :
        links [.mix { inputs := draft.audioBranches, output := mixLabel }] =
          draft.audioBranches := by
      simp only [links, readLabels, List.flatMap_singleton, Stage.inputs]
      refine List.filter_eq_self.mpr fun branch member => ?_
      simpa using wired.not_isStream (branchesDefined branch member)
    rw [definedLabels_append, links_append, mixDefines, mixReads]
    have more := wired.balanced.append_right [mixLabel]
    refine more.trans (List.perm_iff_count.mpr fun name => ?_)
    simp [Outputs.labels, List.count_cons]
    omega

/-- Finishing a wired draft gives a well-formed graph. -/
theorem Draft.Wired.wellFormed (wired : draft.Wired tags) (unused : "final" ∉ tags) :
    draft.finish.WellFormed := by
  match branches : draft.audioBranches with
  | [] => simpa [Draft.finish, branches] using wired.wellFormed_unmixed none branches
  | [branch] =>
      simpa [Draft.finish, branches] using wired.wellFormed_unmixed (some branch) branches
  | first :: second :: rest =>
      simpa [Draft.finish, branches] using wired.wellFormed_mixed unused

/-- The draft of the items of layers is finished to a well-formed graph. -/
theorem Draft.wellFormed_finish {layers : List Layer}
    (items : addItems context (taggedItems layers) (Draft.start context) = .ok draft) :
    draft.finish.WellFormed := by
  obtain ⟨tags, wired, origin⟩ := (Draft.wired_start context).addItems items
    (taggedItems_distinct layers) (by simp)
  refine wired.wellFormed fun member => ?_
  exact final_not_mem_tags layers ((origin _ member).resolve_left List.not_mem_nil)

/-- The graph of any layers is well formed. -/
theorem Graph.wellFormed_of_layers {layers : List Layer}
    (compiled : Graph.ofLayers context layers = .ok graph) : graph.WellFormed := by
  obtain ⟨draft, items, equal⟩ := bind_eq_ok.mp compiled
  cases equal
  exact Draft.wellFormed_finish items

/-! ## A film with an asset of every kind -/

/-- An asset whose id is its file. Its loudness and its colours are used where its kind has them. -/
def sampleAsset (id : String) (kind : MediaKind) : MediaItem where
  id := id
  kind := kind
  filePath := id
  duration := none
  volume := some 50
  muted := false
  x := none
  y := none
  width := none
  height := none
  text := some "Title"
  fontFamily := none
  fontSize := none
  fontBold := false
  fontItalic := false
  fontColor := none
  backgroundColor := some "#102030"
  backgroundTransparent := false
  textAlignment := none

/-- Four seconds of an asset. -/
def sampleItem (mediaId : String) (start : Binary64) : TimelineItem where
  id := "item"
  mediaId := mediaId
  startTime := start
  duration := 4
  track := 0
  geometry := none

/-- A layer of items. -/
def sampleLayer (visible : Bool) (items : List TimelineItem) : Layer where
  id := "layer"
  name := ""
  visible := visible
  locked := false
  kind := none
  items := items

/-- Two visible layers around a hidden one. -/
def sampleLayers : List Layer :=
  [sampleLayer true [sampleItem "picture" 0, sampleItem "music" 1],
    sampleLayer false [sampleItem "hidden" 0],
    sampleLayer true [sampleItem "film" 2, sampleItem "title" 0, sampleItem "voice" 0]]

/-- Assets for the sample layers, with one that is not used. -/
def sampleAssets : List MediaItem :=
  [sampleAsset "unused" .image, sampleAsset "voice" .voiceover, sampleAsset "picture" .image,
    sampleAsset "film" .video, sampleAsset "title" .text, sampleAsset "music" .audio]

/-- The inputs in the order in which the sample layers use them. -/
def sampleContext : Context where
  library := Library.ofList sampleAssets
  sources := [("picture", .input 0), ("music", .input 1), ("film", .input 2), ("title", .drawn),
    ("voice", .input 3)]
  frame := ⟨1920, 1080⟩
  totalDuration := .real 30

theorem wellFormed_sampleLayers :
    ∃ graph, Graph.ofLayers sampleContext sampleLayers = .ok graph ∧
      graph.stages.length = 14 ∧ graph.WellFormed := by
  have compiled : ∃ graph ∈ (Graph.ofLayers sampleContext sampleLayers).toOption,
      graph.stages.length = 14 := by decide +kernel
  obtain ⟨graph, member, length⟩ := compiled
  have compiled := mem_toOption.mp member
  exact ⟨graph, compiled, length, Graph.wellFormed_of_layers compiled⟩

end Montage.Filter
