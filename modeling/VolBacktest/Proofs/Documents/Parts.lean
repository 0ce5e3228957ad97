import VolBacktest.Proofs.Documents.Depth
import VolBacktest.Proofs.Documents.Gaps
import VolBacktest.Strategy.Edit

/-!
# Parts read alone and in place

Actions, triggers and instruments can be read each from its own text, or where they stand in a text that
holds more. Alone, a part is read straight from its text. In place, it has less room for containers, and
if it stands inside a tagged value it is read from a part that has been kept. Still both come to the same:
a document is accepted exactly if its parts are accepted alone, and then it is made up of them. What is
loaded from one text is thus what can be put together from parts that are loaded one by one.

There is one exception. The tag of a kept part may be given as the index of its variant, so an action or a
child that does so is accepted in place only.
-/

namespace VolBacktest

open Json

variable {α β : Type}

/-- The text holds one value, in which no more containers than that are open at once. -/
def HoldsWithin (room : Nat) (text : String) : Prop := ∃ tree, Holds text tree ∧ tree.Fits room

/-- The value in the text gives its own tag as the index of one of that many variants. -/
def IndexTagged (variants : Nat) (text : String) : Prop :=
  (Document.ofText text).root.IndexTagged variants

/-- The values of the texts, each of which is read alone. -/
def ReadAlone (reader : Reader α) (texts : List String) (values : List α) : Prop :=
  List.Forall₂ (fun text value => read reader text = .ok value) texts values

/-- The document is accepted exactly if the texts of its parts are accepted alone, and it is made up of
what these hold. -/
def SameInPlace (part : Reader α) (whole : Reader β) (texts : List String) (document : String)
    (make : List α → β) : Prop :=
  ∀ value, read whole document = .ok value ↔
    ∃ parts, ReadAlone part texts parts ∧ value = make parts

/-- What is accepted alone is accepted in place, and makes up the document. Where no part gives its tag as
the index of a variant, nothing else is accepted in place. -/
def SameUpToTags (variants : Nat) (part : Reader α) (whole : Reader β) (texts : List String)
    (document : String) (make : List α → β) : Prop :=
  (∀ parts, ReadAlone part texts parts → read whole document = .ok (make parts)) ∧
    ((∀ text ∈ texts, ¬IndexTagged variants text) → SameInPlace part whole texts document make)

theorem Json.Holds.read_eq_ok_iff {text : String} {tree : Tree} (holds : Holds text tree)
    {reader : Reader α} {value : α} :
    read reader text = .ok value ↔ reader .direct depthLimit tree = .ok value := by
  rw [Json.read, Document.read, holds.document]
  simp [bind_eq_ok]

/-- Between a document and its parts only trees are compared: it is enough that what a part is read as
alone is what it is read as in place. -/
theorem sameInPlace_of_trees {part inner : Reader α} {whole : Reader β} {mode : Mode} {room : Nat}
    {make : List α → β} {document : String} {place : List Tree → Tree} {texts : List String}
    {P : Tree → Prop} (each : ∀ text ∈ texts, ∃ tree, Holds text tree ∧ P tree)
    (holds : ∀ trees, List.Forall₂ Holds texts trees → Holds document (place trees))
    (law : ∀ trees value, whole .direct depthLimit (place trees) = .ok value ↔
      ∃ parts, ReadEach inner mode room trees parts ∧ value = make parts)
    (agree : ∀ tree value, P tree →
      (part .direct depthLimit tree = .ok value ↔ inner mode room tree = .ok value)) :
    SameInPlace part whole texts document make := by
  obtain ⟨trees, held⟩ := exists_forall₂_iff.mpr each
  have inPlace := holds trees (held.imp fun _ _ one => one.1)
  intro value
  rw [inPlace.read_eq_ok_iff, law]
  refine exists_congr fun parts => and_congr_left fun _ => ?_
  refine (forall₂_congr_left (held.imp fun text tree one part => ?_)).symm
  rw [one.1.read_eq_ok_iff, agree tree part one.2]

/-- The trees that the texts hold, with what is known of each. -/
theorem exists_named_tree {room variants : Nat} {texts : List String}
    (each : ∀ text ∈ texts, HoldsWithin room text)
    (named : ∀ text ∈ texts, ¬IndexTagged variants text) :
    ∀ text ∈ texts, ∃ tree, Holds text tree ∧ tree.Fits room ∧ ¬tree.IndexTagged variants := by
  intro text among
  obtain ⟨tree, holds, fits⟩ := each text among
  refine ⟨tree, holds, fits, ?_⟩
  have notIndex := named text among
  rwa [IndexTagged, holds.document] at notIndex

/-- It is enough to look at parts that do not give an index as their tag, if no others are accepted
alone. -/
theorem sameUpToTags {variants : Nat} {part : Reader α} {whole : Reader β} {texts : List String}
    {document : String} {make : List α → β}
    (same : (∀ text ∈ texts, ¬IndexTagged variants text) →
      SameInPlace part whole texts document make)
    (named : ∀ text value, read part text = .ok value → ¬IndexTagged variants text) :
    SameUpToTags variants part whole texts document make := by
  refine ⟨fun parts alone => ?_, same⟩
  refine (same (fun text among => ?_) (make parts)).mpr ⟨parts, alone, rfl⟩
  obtain ⟨value, accepted⟩ := exists_forall₂_iff.mp ⟨parts, alone⟩ text among
  exact named text value accepted

section InPlace

variable {gap : Gap String} {place : Gap Tree} {texts : List String}

theorem holds_list (placed : gap.Holds place) (trees : List Tree)
    (held : List.Forall₂ Holds texts trees) :
    Holds (gap.text (listText texts)) (place.tree (listed trees)) :=
  placed.fill (holds_listText held)

/-- What is read from a document with an empty list in the gap. -/
theorem read_empty_iff (placed : gap.Holds place) {reader : Reader α} {value : α} :
    read reader (gap.text (listText [])) = .ok value ↔
      reader .direct depthLimit (place.tree (listed [])) = .ok value :=
  (holds_list placed [] .nil).read_eq_ok_iff

/-! ### Parts that are read alone as they are read in place -/

namespace Instrument

theorem kind_mode (mode other : Mode) : InstrumentKind.reader mode = InstrumentKind.reader other := by
  funext room tree
  cases tree with
  | scalar value => cases value <;> rfl
  | _ => rfl

/-- Instruments have no tag of their own kind: theirs is a text wherever they stand. -/
theorem reader_mode_iff (mode other : Mode) {room : Nat} {tree : Tree} {instrument : Instrument} :
    reader mode room tree = .ok instrument ↔ reader other room tree = .ok instrument := by
  cases tree with
  | object members stop =>
      simp only [reader, Fields.objectReader_eq_ok_iff, Fields.readFrom_members_eq_ok_iff,
        fieldsOf_eq_ok_iff, Fields.required_eq_ok_iff, Fields.others_eq_ok_iff, kind_mode mode other]
  | _ => exact Iff.rfl

theorem reader_direct_iff {mode : Mode} {tree : Tree} {room : Nat} (enough : room ≤ depthLimit)
    (fits : tree.Fits room) (instrument : Instrument) :
    reader .direct depthLimit tree = .ok instrument ↔ reader mode room tree = .ok instrument := by
  rw [reader_mode_iff mode .direct]
  exact agree_reader room .direct (Nat.le_refl _) fits enough (Nat.le_refl _) instrument

end Instrument

namespace Action

theorem not_indexTagged {text : String} {action : Action} (alone : read reader text = .ok action) :
    ¬IndexTagged 5 text :=
  Reader.not_indexTagged (reader_of_read alone) 5

theorem reader_direct_iff {tree : Tree} {room : Nat} (enough : room ≤ depthLimit)
    (fits : tree.Fits room) (named : ¬tree.IndexTagged 5) (action : Action) :
    reader .direct depthLimit tree = .ok action ↔ reader .kept room tree = .ok action := by
  rw [← agree_reader room .kept (Nat.le_refl _) fits enough (Nat.le_refl _) action]
  exact ⟨Reader.tagged_kept, fun kept => Reader.tagged_direct kept named⟩

end Action

namespace Trigger

theorem not_indexTagged_of_readerWithin {levels room : Nat} {tree : Tree} {trigger : Trigger}
    (read : readerWithin (levels + 1) .direct room tree = .ok trigger) : ¬tree.IndexTagged 6 :=
  Reader.not_indexTagged read 6

theorem readerWithin_direct_iff {levels room : Nat} {tree : Tree} (named : ¬tree.IndexTagged 6)
    (trigger : Trigger) :
    readerWithin (levels + 1) .direct room tree = .ok trigger ↔
      readerWithin (levels + 1) .kept room tree = .ok trigger :=
  ⟨Reader.tagged_kept, fun kept => Reader.tagged_direct kept named⟩

theorem not_indexTagged {text : String} {trigger : Trigger} (alone : read reader text = .ok trigger) :
    ¬IndexTagged 6 text := by
  have accepted := reader_of_read alone
  rw [reader] at accepted
  exact not_indexTagged_of_readerWithin accepted

theorem reader_direct_iff {tree : Tree} {room levels : Nat} (enough : room ≤ depthLimit)
    (fits : tree.Fits room) (within : room < levels) (named : ¬tree.IndexTagged 6)
    (trigger : Trigger) :
    reader .direct depthLimit tree = .ok trigger ↔
      readerWithin levels .kept room tree = .ok trigger := by
  rw [reader, readerWithin_direct_iff named]
  exact agree_readerWithin (Nat.lt_succ_of_le enough) within .kept (Nat.le_refl _) fits enough
    (Nat.le_refl _) trigger

end Trigger

theorem Trigger.actions_in_place (placed : gap.Holds place) (field : place.IsField "actions" 2)
    {trigger : Trigger} (base : read reader (gap.text (listText [])) = .ok trigger)
    (each : ∀ text ∈ texts, HoldsWithin (depthLimit - 2) text) :
    SameUpToTags 5 Action.reader reader texts (gap.text (listText texts)) trigger.withActions := by
  have accepted := (read_empty_iff placed).mp base
  rw [reader] at accepted
  obtain ⟨rest, room, law⟩ := readerWithin_actions_iff field accepted
  have same : rest = depthLimit - 2 := by omega
  refine sameUpToTags (fun named => ?_) fun _ _ => Action.not_indexTagged
  refine sameInPlace_of_trees (exists_named_tree each named) (holds_list placed) law ?_
  rintro tree action ⟨fits, notIndex⟩
  exact Action.reader_direct_iff (by omega) (same ▸ fits) notIndex action

theorem Trigger.children_in_place {inside : Gap String} {inner : Gap Tree} (placed : gap.Holds place)
    (field : place.IsField "trigger_requirements" 1) (placedInside : inside.Holds inner)
    (innerField : inner.IsField "triggers" 0) {own : List Action}
    (base : read reader (gap.text (inside.text (listText []))) = .ok (.aggregate [] own))
    (each : ∀ text ∈ texts, HoldsWithin (depthLimit - 3) text) :
    SameUpToTags 6 reader reader texts (gap.text (inside.text (listText texts))) fun children =>
      .aggregate children own := by
  have accepted := (placed.fill (holds_list placedInside [] .nil)).read_eq_ok_iff.mp base
  rw [reader] at accepted
  obtain ⟨rest, room, law⟩ := readerWithin_children_iff field innerField accepted
  have same : rest = depthLimit - 3 := by omega
  refine sameUpToTags (fun named => ?_) fun _ _ => not_indexTagged
  refine sameInPlace_of_trees (exists_named_tree each named)
    (fun trees held => placed.fill (holds_list placedInside trees held)) law ?_
  rintro tree trigger ⟨fits, notIndex⟩
  exact reader_direct_iff (by omega) (same ▸ fits) (by omega) notIndex trigger

theorem Action.priceables_in_place (placed : gap.Holds place) (field : place.IsField "priceables" 1)
    {action : Action} (base : read reader (gap.text (listText [])) = .ok action)
    (lists : action.kind = .enter ∨ action.kind = .addTrade)
    (each : ∀ text ∈ texts, HoldsWithin (depthLimit - 2) text) :
    SameInPlace Instrument.reader reader texts (gap.text (listText texts)) action.withInstruments := by
  obtain ⟨rest, room, law⟩ := reader_priceables_iff field ((read_empty_iff placed).mp base) lists
  have same : rest = depthLimit - 2 := by omega
  refine sameInPlace_of_trees each (holds_list placed) law ?_
  intro tree instrument fits
  exact Instrument.reader_direct_iff (by omega) (same ▸ fits) instrument

namespace Strategy

variable {old : List String} {trees : List Tree} {strategy : Strategy}

theorem triggers_in_place (placed : gap.Holds place) (field : place.IsField "triggers" 1)
    (held : List.Forall₂ Holds old trees)
    (base : read reader (gap.text (listText old)) = .ok strategy)
    (each : ∀ text ∈ texts, HoldsWithin (depthLimit - 2) text) :
    SameInPlace Trigger.reader reader texts (gap.text (listText texts)) fun triggers =>
      { strategy with triggers } := by
  have accepted := (holds_list placed trees held).read_eq_ok_iff.mp base
  obtain ⟨rest, room, law⟩ := reader_triggers_iff field accepted
  have same : rest = depthLimit - 2 := by omega
  refine sameInPlace_of_trees each (holds_list placed) law ?_
  intro tree trigger fits
  rw [Trigger.reader, Trigger.reader]
  have agree : (Trigger.readerWithin (depthLimit + 1)).Agree rest (Trigger.readerWithin (rest + 1)) :=
    Trigger.agree_readerWithin (by omega) (Nat.lt_succ_self rest)
  exact agree .direct (Nat.le_refl _) (same ▸ fits) (by omega) (Nat.le_refl _) trigger

theorem portfolio_in_place (placed : gap.Holds place) (field : place.IsField "initial_portfolio" 0)
    (held : List.Forall₂ Holds old trees)
    (base : read reader (gap.text (listText old)) = .ok strategy)
    (each : ∀ text ∈ texts, HoldsWithin (depthLimit - 2) text) :
    SameInPlace Instrument.reader reader texts (gap.text (listText texts)) fun positions =>
      { strategy with initialPortfolio := positions } := by
  have accepted := (holds_list placed trees held).read_eq_ok_iff.mp base
  obtain ⟨rest, room, law⟩ := reader_portfolio_iff field accepted
  have same : rest = depthLimit - 2 := by omega
  refine sameInPlace_of_trees each (holds_list placed) law ?_
  intro tree instrument fits
  exact Instrument.reader_direct_iff (by omega) (same ▸ fits) instrument

end Strategy

end InPlace

/-! ### Strategies put together from their parts -/

namespace Strategy

/-- The strategy that is put together from its parts, one after the other. -/
def assemble (positions : List Instrument) (triggers : List Trigger) : Except EditError Strategy :=
  (positions.map Edit.pushPosition ++ triggers.map Edit.pushTrigger).foldlM edit .empty

/-- Edits that each add an item add all of them. -/
theorem foldlM_edit_map {push : α → Edit} (extend : Strategy → List α → Strategy)
    (nothing : ∀ strategy, extend strategy [] = strategy)
    (one : ∀ strategy item, edit strategy (push item) = .ok (extend strategy [item]))
    (more : ∀ strategy item rest, extend (extend strategy [item]) rest = extend strategy (item :: rest))
    (strategy : Strategy) (items : List α) :
    (items.map push).foldlM edit strategy = .ok (extend strategy items) := by
  induction items generalizing strategy with
  | nil => rw [nothing]; rfl
  | cons item rest ih =>
      rw [List.map_cons, List.foldlM_cons, one]
      exact (ih _).trans (by rw [more])

theorem assemble_eq (positions : List Instrument) (triggers : List Trigger) :
    assemble positions triggers = .ok ⟨positions, triggers⟩ := by
  have first : (positions.map Edit.pushPosition).foldlM edit .empty = .ok ⟨positions, []⟩ :=
    foldlM_edit_map
      (fun strategy more => ⟨strategy.initialPortfolio ++ more, strategy.triggers⟩)
      (by simp) (fun _ _ => rfl) (by simp) .empty positions
  have second : (triggers.map Edit.pushTrigger).foldlM edit ⟨positions, []⟩ =
      .ok ⟨positions, triggers⟩ :=
    foldlM_edit_map
      (fun strategy more => ⟨strategy.initialPortfolio, strategy.triggers ++ more⟩)
      (by simp) (fun _ _ => rfl) (by simp) ⟨positions, []⟩ triggers
  rw [assemble, List.foldlM_append, first]
  exact second

/-- The text of a strategy from the texts of its parts, with these keys. -/
def documentText (portfolioKey triggersKey : String) (positions triggers : List String) : String :=
  objectText [(portfolioKey, listText positions), (triggersKey, listText triggers)]

/-- A strategy loaded from one text is the one that is put together from parts loaded one by one. -/
theorem read_documentText_iff {portfolioKey triggersKey : String} {positions triggers : List String}
    (portfolioSpelled : Spells portfolioKey "initial_portfolio")
    (triggersSpelled : Spells triggersKey "triggers")
    (eachPosition : ∀ text ∈ positions, HoldsWithin (depthLimit - 2) text)
    (eachTrigger : ∀ text ∈ triggers, HoldsWithin (depthLimit - 2) text) (strategy : Strategy) :
    read reader (documentText portfolioKey triggersKey positions triggers) = .ok strategy ↔
      ∃ instruments parts, ReadAlone Instrument.reader positions instruments ∧
        ReadAlone Trigger.reader triggers parts ∧ assemble instruments parts = .ok strategy := by
  have eachHolds {texts : List String} (each : ∀ text ∈ texts, HoldsWithin (depthLimit - 2) text) :
      ∃ trees, List.Forall₂ Holds texts trees :=
    exists_forall₂_iff.mpr fun text among => (each text among).imp fun _ one => one.1
  obtain ⟨positionTrees, heldPositions⟩ := eachHolds eachPosition
  obtain ⟨triggerTrees, heldTriggers⟩ := eachHolds eachTrigger
  have portfolioGap {texts : List String} {trees : List Tree} (held : List.Forall₂ Holds texts trees) :
      (Gap.member [] portfolioKey [(triggersKey, listText texts)]).Holds
        (.member [] "initial_portfolio" [("triggers", listed trees)]) :=
    .member .nil portfolioSpelled (.cons ⟨triggersSpelled, holds_listText held⟩ .nil)
  have triggersGap : (Gap.member [(portfolioKey, listText positions)] triggersKey []).Holds
        (.member [("initial_portfolio", listed positionTrees)] "triggers" []) :=
    .member (.cons ⟨portfolioSpelled, holds_listText heldPositions⟩ .nil) triggersSpelled .nil
  constructor
  · intro accepted
    -- What has been accepted is also the document with other lists in place of its own.
    have first := portfolio_in_place (portfolioGap heldTriggers) rfl heldPositions accepted eachPosition
    have second := triggers_in_place triggersGap rfl heldTriggers accepted eachTrigger
    obtain ⟨instruments, alone, samePortfolio⟩ := (first strategy).mp accepted
    obtain ⟨parts, partsAlone, sameTriggers⟩ := (second strategy).mp accepted
    have portfolio : strategy.initialPortfolio = instruments := congrArg initialPortfolio samePortfolio
    have own : strategy.triggers = parts := congrArg Strategy.triggers sameTriggers
    exact ⟨instruments, parts, alone, partsAlone, by rw [assemble_eq, ← portfolio, ← own]⟩
  · rintro ⟨instruments, parts, alone, partsAlone, assembled⟩
    rw [assemble_eq] at assembled
    cases assembled
    have nothing : read reader (documentText portfolioKey triggersKey [] []) = .ok .empty :=
      (holds_list (portfolioGap .nil) [] .nil).read_eq_ok_iff.mpr rfl
    have first := portfolio_in_place (portfolioGap .nil) rfl .nil nothing eachPosition
    have loaded := (first ⟨instruments, []⟩).mpr ⟨instruments, alone, rfl⟩
    have second := triggers_in_place triggersGap rfl .nil loaded eachTrigger
    exact (second ⟨instruments, parts⟩).mpr ⟨parts, partsAlone, rfl⟩

/-- Reading a part alone and reading it in place agree: for the actions of a trigger, the children of an
aggregate, the instruments of an action, and the triggers and the positions of a strategy. The document
is any that is accepted with an empty list where the parts are put, and the parts are texts of values for
whose containers there is room in it. -/
theorem read_in_place :
    (∀ {gap : Gap String} {place : Gap Tree} {trigger : Trigger} {texts : List String},
      gap.Holds place → place.IsField "actions" 2 →
      read Trigger.reader (gap.text (listText [])) = .ok trigger →
      (∀ text ∈ texts, HoldsWithin (depthLimit - 2) text) →
        SameUpToTags 5 Action.reader Trigger.reader texts (gap.text (listText texts))
          trigger.withActions) ∧
    (∀ {gap inside : Gap String} {place inner : Gap Tree} {own : List Action} {texts : List String},
      gap.Holds place → place.IsField "trigger_requirements" 1 →
      inside.Holds inner → inner.IsField "triggers" 0 →
      read Trigger.reader (gap.text (inside.text (listText []))) = .ok (.aggregate [] own) →
      (∀ text ∈ texts, HoldsWithin (depthLimit - 3) text) →
        SameUpToTags 6 Trigger.reader Trigger.reader texts (gap.text (inside.text (listText texts)))
          fun children => .aggregate children own) ∧
    (∀ {gap : Gap String} {place : Gap Tree} {action : Action} {texts : List String},
      gap.Holds place → place.IsField "priceables" 1 →
      read Action.reader (gap.text (listText [])) = .ok action →
      (action.kind = .enter ∨ action.kind = .addTrade) →
      (∀ text ∈ texts, HoldsWithin (depthLimit - 2) text) →
        SameInPlace Instrument.reader Action.reader texts (gap.text (listText texts))
          action.withInstruments) ∧
    (∀ {gap : Gap String} {place : Gap Tree} {strategy : Strategy} {texts : List String},
      gap.Holds place → read reader (gap.text (listText [])) = .ok strategy →
      (∀ text ∈ texts, HoldsWithin (depthLimit - 2) text) →
        (place.IsField "triggers" 1 →
          SameInPlace Trigger.reader reader texts (gap.text (listText texts)) fun triggers =>
            { strategy with triggers }) ∧
        (place.IsField "initial_portfolio" 0 →
          SameInPlace Instrument.reader reader texts (gap.text (listText texts)) fun positions =>
            { strategy with initialPortfolio := positions })) ∧
    ∀ {portfolioKey triggersKey : String} {positions triggers : List String},
      Spells portfolioKey "initial_portfolio" → Spells triggersKey "triggers" →
      (∀ text ∈ positions, HoldsWithin (depthLimit - 2) text) →
      (∀ text ∈ triggers, HoldsWithin (depthLimit - 2) text) →
        ∀ strategy, ofText (documentText portfolioKey triggersKey positions triggers) = .ok strategy ↔
          ∃ instruments parts, ReadAlone Instrument.reader positions instruments ∧
            ReadAlone Trigger.reader triggers parts ∧ assemble instruments parts = .ok strategy := by
  refine ⟨?_, ?_, ?_, ?_, read_documentText_iff⟩
  · intro gap place trigger texts placed field base each
    exact Trigger.actions_in_place placed field base each
  · intro gap inside place inner own texts placed field placedInside innerField base each
    exact Trigger.children_in_place placed field placedInside innerField base each
  · intro gap place action texts placed field base lists each
    exact Action.priceables_in_place placed field base lists each
  · intro gap place strategy texts placed base each
    exact ⟨fun field => triggers_in_place placed field .nil base each,
      fun field => portfolio_in_place placed field .nil base each⟩

/-- An object of these written members, with a gap under one more key, as text and as tree. -/
def writtenText (members : List (String × Json)) (key : String) : Gap String :=
  .member (members.map fun member => ((Json.string member.1).text, member.2.text))
    (Json.string key).text []

def writtenTree (members : List (String × Json)) (key : String) : Gap Tree :=
  .member (members.map fun member => (member.1, .ofJson member.2)) key []

theorem writtenText_holds (members : List (String × Json)) (key : String) :
    (writtenText members key).Holds (writtenTree members key) := by
  refine .member ?_ (spells_text key) .nil
  rw [List.forall₂_map_left_iff, List.forall₂_map_right_iff, List.forall₂_same]
  exact fun member _ => ⟨spells_text member.1, holds_text member.2⟩

/-- A periodic trigger without its actions. -/
def periodicMembers : List (String × Json) :=
  [(tagName, .string "PeriodicTrigger"),
    ("trigger_requirements", .object [("frequency", .string "1m")])]

theorem read_periodicMembers :
    read Trigger.reader ((writtenText periodicMembers "actions").text (listText [])) =
      .ok (.periodic ⟨"1m", []⟩) :=
  toOption_eq_some.mp (by decide +kernel)

/-- An object with nothing but a tag. -/
def tagOnly (tag : Json) : Json := .object [(tagName, tag)]

theorem fits_tagOnly (tag : Json) (plain : ∀ room, (Tree.ofJson tag).Fits room) (room : Nat) :
    (Tree.ofJson (tagOnly tag)).Fits (room + 1) := by
  refine .object fun member inside => ?_
  obtain rfl := List.mem_singleton.mp inside
  exact plain room

theorem fits_periodicMembers {actions : List Tree} {room : Nat}
    (each : ∀ action ∈ actions, action.Fits (room + 1)) :
    ((writtenTree periodicMembers "actions").tree (listed actions)).Fits (room + 3) := by
  refine .object fun member inside => ?_
  simp only [periodicMembers, List.map_cons, List.map_nil, List.cons_append, List.nil_append, keyed,
    List.mem_cons, List.not_mem_nil, or_false] at inside
  obtain rfl | rfl | rfl := inside
  · exact .scalar _ _
  · refine .object fun member inside => ?_
    obtain rfl := List.mem_singleton.mp inside
    exact .scalar _ _
  · exact .array each

/-- Written parts in written documents: an exit among the actions of a periodic trigger, this trigger in an
aggregate and, with an option, in a strategy, and the option among the trades that are added. -/
theorem read_in_place_of_written :
    let exit := (tagOnly (.string "ExitPositionAction")).text
    let option := (tagOnly (.string "EqOption")).text
    let periodic := (writtenText periodicMembers "actions").text (listText [exit])
    let aggregate := writtenText [(tagName, .string "AggregateTrigger")] "trigger_requirements"
    let trades := writtenText [(tagName, .string "AddTradeAction")] "priceables"
    read Trigger.reader periodic = .ok (.periodic ⟨"1m", [.exit]⟩) ∧
      read Trigger.reader (aggregate.text ((writtenText [] "triggers").text (listText [periodic]))) =
        .ok (.aggregate [.periodic ⟨"1m", [.exit]⟩] []) ∧
      read Action.reader (trades.text (listText [option])) =
        .ok (.addTrade ⟨[⟨.eqOption, .empty⟩], none⟩) ∧
      ofText (documentText (Json.string "initial_portfolio").text (Json.string "triggers").text
          [option] [periodic]) =
        .ok ⟨[⟨.eqOption, .empty⟩], [.periodic ⟨"1m", [.exit]⟩]⟩ := by
  intro exit option periodic aggregate trades
  obtain ⟨actions, children, priceables, -, parts⟩ := read_in_place
  have exitFits := fits_tagOnly (.string "ExitPositionAction") fun room => .scalar room _
  have optionFits := fits_tagOnly (.string "EqOption") fun room => .scalar room _
  have periodicHolds := (writtenText_holds periodicMembers "actions").fill
    (holds_listText (.cons (holds_text (tagOnly (.string "ExitPositionAction"))) .nil))
  have periodicFits (room : Nat) :=
    fits_periodicMembers (List.forall_mem_singleton.mpr (exitFits room))
  have optionWithin : ∀ text ∈ [option], HoldsWithin (depthLimit - 2) text :=
    List.forall_mem_singleton.mpr ⟨_, holds_text _, optionFits _⟩
  have periodicWithin (room : Nat) : ∀ text ∈ [periodic], HoldsWithin (room + 3) text :=
    List.forall_mem_singleton.mpr ⟨_, periodicHolds, periodicFits _⟩
  have exitAlone : read Action.reader exit = .ok .exit := toOption_eq_some.mp (by decide +kernel)
  have optionAlone : read Instrument.reader option = .ok ⟨.eqOption, .empty⟩ :=
    toOption_eq_some.mp (by decide +kernel)
  have periodicAlone : read Trigger.reader periodic = .ok (.periodic ⟨"1m", [.exit]⟩) := by
    refine (actions (writtenText_holds _ _) rfl read_periodicMembers ?_).1 _ (.cons exitAlone .nil)
    exact List.forall_mem_singleton.mpr ⟨_, holds_text _, exitFits _⟩
  have empty : read Trigger.reader (aggregate.text ((writtenText [] "triggers").text (listText []))) =
      .ok (.aggregate [] []) := toOption_eq_some.mp (by decide +kernel)
  have nothing : read Action.reader (trades.text (listText [])) = .ok (.addTrade ⟨[], none⟩) :=
    toOption_eq_some.mp (by decide +kernel)
  have inAggregate := children (writtenText_holds _ _) rfl (writtenText_holds _ _) rfl empty
    (periodicWithin _)
  have inTrades := priceables (writtenText_holds _ _) rfl nothing (.inr rfl) optionWithin
  have inStrategy := parts (spells_text _) (spells_text _) optionWithin (periodicWithin _)
  exact ⟨periodicAlone, inAggregate.1 _ (.cons periodicAlone .nil),
    (inTrades _).mpr ⟨_, .cons optionAlone .nil, rfl⟩,
    (inStrategy _).mpr ⟨_, _, .cons optionAlone .nil, .cons periodicAlone .nil, rfl⟩⟩

/-- The exception: an action given by its index, `2` for an exit, is accepted in place, but not alone. -/
theorem not_read_in_place_of_index :
    ¬∀ (gap : Gap String) (place : Gap Tree) (trigger : Trigger) (text : String),
      gap.Holds place → place.IsField "actions" 2 →
      read Trigger.reader (gap.text (listText [])) = .ok trigger →
      HoldsWithin (depthLimit - 2) text →
        ∀ action, read Action.reader text = .ok action ↔
          read Trigger.reader (gap.text (listText [text])) = .ok (trigger.withActions [action]) := by
  intro claim
  have inPlace : read Trigger.reader
      ((writtenText periodicMembers "actions").text
        (listText [(tagOnly (.number (.integer 2))).text])) =
        .ok (.periodic ⟨"1m", [.exit]⟩) := toOption_eq_some.mp (by decide +kernel)
  have within : HoldsWithin (depthLimit - 2) (tagOnly (.number (.integer 2))).text :=
    ⟨_, holds_text _, fits_tagOnly (.number (.integer 2)) (fun room => .scalar room _) _⟩
  have same := claim _ _ _ _ (writtenText_holds _ _) rfl read_periodicMembers within .exit
  have refused : (read Action.reader (tagOnly (.number (.integer 2))).text).toOption = none := by
    decide +kernel
  rw [same.mpr inPlace] at refused
  exact Option.some_ne_none _ refused

end Strategy

end VolBacktest
