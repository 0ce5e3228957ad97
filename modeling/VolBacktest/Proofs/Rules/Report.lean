import VolBacktest.Proofs.Rules.Codes
import VolBacktest.Proofs.Rules.Coverage

/-!
# The report is exact

The report of a strategy has one entry for each fault of the strategy, with the code and the place of the
fault, and no other entry. The rules for the shape are covered one by one here; together with those for
leaves they make up the report. Since different locations have different paths, a report about places is
also one about paths.
-/

namespace VolBacktest

/-! ### Shape -/

theorem TriggerKind.isTopLevel_eq_false_iff {kind : TriggerKind} :
    ¬kind.isTopLevel ↔ kind ≠ .periodic ∧ kind ≠ .aggregate := by
  cases kind <;> decide

theorem Action.isSupported_eq_false_iff {action : Action} :
    ¬action.isSupported ↔ action.kind = .addTrade ∨ action.kind = .rebalance := by
  rw [isSupported]
  cases action.kind <;> decide

theorem AggregateParts.length_dates (children : List Trigger) :
    (ofChildren children).dates.length = children.countP fun child => child.kind = .date := by
  rw [dates_ofChildren, List.length_filterMap_eq_countP]
  refine List.countP_congr fun child _ => ?_
  cases child <;> simp [Trigger.asDate, Trigger.kind]

theorem AggregateParts.length_portfolios (children : List Trigger) :
    (ofChildren children).portfolios.length =
      children.countP fun child => child.kind = .portfolio := by
  rw [portfolios_ofChildren, List.length_filterMap_eq_countP]
  refine List.countP_congr fun child _ => ?_
  cases child <;> simp [Trigger.asPortfolio, Trigger.kind]

theorem LevelRequirement.not_isPortfolioGate_iff {requirement : LevelRequirement} :
    ¬requirement.IsPortfolioGate ↔
      requirement.source ≠ "len" ∨ requirement.level.isZero = false := by
  rw [IsPortfolioGate, portfolioLength, not_and_or, Bool.not_eq_true]

/-- The fault is one of the composition of an aggregate. -/
inductive Trigger.IsMiscomposed (children : List Trigger) (index : Nat) : Fault → Prop where
  | childCount (wrong : children.length ≠ 2) : IsMiscomposed children index (.childCount index)
  | dateChildCount (wrong : children.countP (fun child => child.kind = .date) ≠ 1) :
      IsMiscomposed children index (.dateChildCount index)
  | portfolioChildCount (wrong : children.countP (fun child => child.kind = .portfolio) ≠ 1) :
      IsMiscomposed children index (.portfolioChildCount index)
  | portfolioGate {position : Nat} {gate : Guarded LevelRequirement}
      (placed : children[position]? = some (.portfolio gate))
      (wrong : gate.requirement.source ≠ "len" ∨ gate.requirement.level.isZero = false) :
      IsMiscomposed children index (.portfolioGate index position)

theorem Trigger.covers_gateViolations (child : Trigger) (index position : Nat) :
    Covers (child.gateViolations index position) fun fault =>
      fault = .portfolioGate index position ∧ ∃ gate, child = .portfolio gate ∧
        (gate.requirement.source ≠ "len" ∨ gate.requirement.level.isZero = false) := by
  cases child with
  | portfolio gate =>
      refine (Covers.reportUnless (.portfolioGate index position) rfl).congr fun fault => ?_
      rw [LevelRequirement.not_isPortfolioGate_iff]
      simp
  | date _ => exact .nil (by rintro _ ⟨_, _, ⟨⟩, _⟩)
  | periodic _ => exact .nil (by rintro _ ⟨_, _, ⟨⟩, _⟩)
  | aggregate _ _ => exact .nil (by rintro _ ⟨_, _, ⟨⟩, _⟩)
  | market _ => exact .nil (by rintro _ ⟨_, _, ⟨⟩, _⟩)
  | risk _ => exact .nil (by rintro _ ⟨_, _, ⟨⟩, _⟩)

theorem Trigger.covers_compositionViolations (trigger : Trigger) (index : Nat) :
    Covers (trigger.compositionViolations index) fun fault =>
      ∃ children own, trigger = .aggregate children own ∧ IsMiscomposed children index fault := by
  cases trigger with
  | aggregate children own =>
      have gates := Covers.zipIdx children (fun child position => child.gateViolations index position)
        _ (fun child position => child.covers_gateViolations index position) (by
          rintro _ _ i j _ ⟨rfl, -⟩ ⟨same, -⟩
          cases same
          rfl)
      refine ((((Covers.reportUnless (.childCount index) rfl).append
        (.reportUnless (.dateChildCount index) rfl) ?_).append
        (.reportUnless (.portfolioChildCount index) rfl) ?_).append gates ?_).congr ?_
      · rintro _ ⟨rfl, -⟩ ⟨⟨⟩, -⟩
      · rintro _ (⟨rfl, -⟩ | ⟨rfl, -⟩) ⟨⟨⟩, -⟩
      · rintro _ ((⟨rfl, -⟩ | ⟨rfl, -⟩) | ⟨rfl, -⟩) ⟨_, _, _, ⟨⟩, -⟩
      · intro fault
        rw [AggregateParts.length_dates, AggregateParts.length_portfolios]
        constructor
        · rintro (((⟨rfl, wrong⟩ | ⟨rfl, wrong⟩) | ⟨rfl, wrong⟩) |
            ⟨position, _, placed, rfl, gate, rfl, wrong⟩)
          · exact ⟨_, _, rfl, .childCount wrong⟩
          · exact ⟨_, _, rfl, .dateChildCount wrong⟩
          · exact ⟨_, _, rfl, .portfolioChildCount wrong⟩
          · exact ⟨_, _, rfl, .portfolioGate placed wrong⟩
        · rintro ⟨_, _, ⟨⟩, wrong⟩
          cases wrong with
          | childCount wrong => exact .inl (.inl (.inl ⟨rfl, wrong⟩))
          | dateChildCount wrong => exact .inl (.inl (.inr ⟨rfl, wrong⟩))
          | portfolioChildCount wrong => exact .inl (.inr ⟨rfl, wrong⟩)
          | portfolioGate placed wrong => exact .inr ⟨_, _, placed, rfl, _, rfl, wrong⟩
  | date _ => exact .nil (by rintro _ ⟨_, _, ⟨⟩, _⟩)
  | periodic _ => exact .nil (by rintro _ ⟨_, _, ⟨⟩, _⟩)
  | portfolio _ => exact .nil (by rintro _ ⟨_, _, ⟨⟩, _⟩)
  | market _ => exact .nil (by rintro _ ⟨_, _, ⟨⟩, _⟩)
  | risk _ => exact .nil (by rintro _ ⟨_, _, ⟨⟩, _⟩)

theorem Trigger.covers_ownActionViolations (trigger : Trigger) (index : Nat) :
    Covers (trigger.ownActionViolations index) fun fault =>
      ∃ (position : Nat) (action : Action), trigger.actions[position]? = some action ∧
        fault = .unsupportedOwnAction index position ∧ ¬action.isSupported :=
  Covers.zipIdx trigger.actions
    (fun action position => reportUnless action.isSupported
      ((Breach.unsupportedOwnAction action.kind).at (.action index position)))
    (fun action position fault =>
      fault = .unsupportedOwnAction index position ∧ ¬action.isSupported)
    (fun _ position => .reportUnless (.unsupportedOwnAction index position) rfl) (by
      rintro _ _ i j _ ⟨rfl, -⟩ ⟨same, -⟩
      cases same
      rfl)

namespace Strategy

variable (strategy : Strategy)

theorem covers_topLevelViolations :
    Covers (strategy.triggers.zipIdx.flatMap fun (trigger, index) =>
      trigger.topLevelViolations index) fun fault =>
        ∃ i, fault = .topLevelKind i ∧ fault.Present strategy := by
  have each := Covers.zipIdx strategy.triggers (fun trigger i => trigger.topLevelViolations i)
    (fun trigger i fault => fault = .topLevelKind i ∧ ¬trigger.kind.isTopLevel)
    (fun _ i => .reportUnless (.topLevelKind i) rfl) (by
      rintro _ _ i j _ ⟨rfl, -⟩ ⟨same, -⟩
      cases same
      rfl)
  refine each.congr fun fault => ⟨?_, ?_⟩
  · rintro ⟨i, trigger, found, rfl, wrong⟩
    exact ⟨i, rfl, trigger, found, TriggerKind.isTopLevel_eq_false_iff.mp wrong⟩
  · rintro ⟨i, rfl, trigger, found, wrong⟩
    exact ⟨i, trigger, found, rfl, TriggerKind.isTopLevel_eq_false_iff.mpr wrong⟩

theorem covers_compositionViolations :
    Covers (strategy.triggers.zipIdx.flatMap fun (trigger, index) =>
      trigger.compositionViolations index) fun fault =>
        ∃ (i : Nat) (children : List Trigger) (own : List Action),
          strategy.triggers[i]? = some (.aggregate children own) ∧
            Trigger.IsMiscomposed children i fault := by
  have each := Covers.zipIdx strategy.triggers
    (fun trigger i => trigger.compositionViolations i) _
    (fun trigger i => trigger.covers_compositionViolations i) (by
      rintro _ _ i j _ ⟨_, _, -, wrong⟩ ⟨_, _, -, wrongToo⟩
      cases wrong <;> cases wrongToo <;> rfl)
  refine each.congr fun fault => ⟨?_, ?_⟩
  · rintro ⟨i, _, found, children, own, rfl, wrong⟩
    exact ⟨i, children, own, found, wrong⟩
  · rintro ⟨i, children, own, found, wrong⟩
    exact ⟨i, _, found, children, own, rfl, wrong⟩

theorem covers_ownActionViolations :
    Covers (strategy.triggers.zipIdx.flatMap fun (trigger, index) =>
      trigger.ownActionViolations index) fun fault =>
        ∃ i k, fault = .unsupportedOwnAction i k ∧ fault.Present strategy := by
  have each := Covers.zipIdx strategy.triggers (fun trigger i => trigger.ownActionViolations i) _
    (fun trigger i => trigger.covers_ownActionViolations i) (by
      rintro _ _ i j _ ⟨_, _, -, rfl, -⟩ ⟨_, _, -, same, -⟩
      cases same
      rfl)
  refine each.congr fun fault => ⟨?_, ?_⟩
  · rintro ⟨i, trigger, found, k, action, owned, rfl, wrong⟩
    exact ⟨i, k, rfl, trigger, action, found, owned, Action.isSupported_eq_false_iff.mp wrong⟩
  · rintro ⟨i, k, rfl, trigger, action, found, owned, wrong⟩
    exact ⟨i, trigger, found, k, action, owned, rfl, Action.isSupported_eq_false_iff.mpr wrong⟩

theorem covers_repeatedKindViolations :
    Covers strategy.repeatedKindViolations fun fault =>
      ∃ kind, fault = .repeatedAction kind ∧ fault.Present strategy := by
  have each := Covers.flatMap (nodup_firstOccurrences strategy.ownActionKinds)
    (fun kind => reportUnless (strategy.ownActionKinds.count kind ≤ 1)
      ⟨.repeatedAction kind (strategy.ownActionKinds.count kind), none⟩)
    (fun kind fault => fault = .repeatedAction kind ∧ ¬strategy.ownActionKinds.count kind ≤ 1)
    (fun kind _ => .reportUnless (.repeatedAction kind) rfl) (by
      rintro first - second - _ ⟨rfl, -⟩ ⟨same, -⟩
      cases same
      rfl)
  rw [repeatedKindViolations_eq]
  refine each.congr fun fault => ⟨?_, ?_⟩
  · rintro ⟨kind, -, rfl, wrong⟩
    exact ⟨kind, rfl, by simpa [Fault.Present] using wrong⟩
  · rintro ⟨kind, rfl, wrong⟩
    have repeated : 1 < strategy.ownActionKinds.count kind := wrong
    refine ⟨kind, mem_firstOccurrences.mpr (List.count_pos_iff.mp (by omega)), rfl, ?_⟩
    omega

theorem covers_shapeViolations :
    Covers strategy.shapeViolations fun fault =>
      fault.isOfLeaf = false ∧ fault.Present strategy := by
  refine ((((((Covers.reportUnless .initialPositions rfl).append
    (.reportUnless .tooManyTriggers rfl) ?_).append
    strategy.covers_topLevelViolations ?_).append
    strategy.covers_compositionViolations ?_).append
    strategy.covers_ownActionViolations ?_).append
    strategy.covers_repeatedKindViolations ?_).congr ?exact
  · rintro _ ⟨rfl, -⟩ ⟨⟨⟩, -⟩
  · rintro _ (⟨rfl, -⟩ | ⟨rfl, -⟩) ⟨_, ⟨⟩, -⟩
  · rintro _ ((⟨rfl, -⟩ | ⟨rfl, -⟩) | ⟨_, rfl, -⟩) ⟨_, _, _, _, ⟨⟩⟩
  · rintro _ earlier ⟨_, _, rfl, -⟩
    obtain ((⟨⟨⟩, -⟩ | ⟨⟨⟩, -⟩) | ⟨_, ⟨⟩, -⟩) | ⟨_, _, _, _, ⟨⟩⟩ := earlier
  · rintro _ earlier ⟨_, rfl, -⟩
    obtain (((⟨⟨⟩, -⟩ | ⟨⟨⟩, -⟩) | ⟨_, ⟨⟩, -⟩) | ⟨_, _, _, _, ⟨⟩⟩) | ⟨_, _, ⟨⟩, -⟩ := earlier
  case exact =>
    intro fault
    constructor
    · rintro (((((⟨rfl, wrong⟩ | ⟨rfl, wrong⟩) | ⟨i, rfl, present⟩) |
        ⟨i, children, own, found, wrong⟩) | ⟨i, k, rfl, present⟩) | ⟨kind, rfl, present⟩)
      · exact ⟨rfl, by simpa [Fault.Present] using wrong⟩
      · exact ⟨rfl, by simpa [Fault.Present, maxTriggers] using wrong⟩
      · exact ⟨rfl, present⟩
      · cases wrong with
        | childCount wrong => exact ⟨rfl, children, own, found, wrong⟩
        | dateChildCount wrong => exact ⟨rfl, children, own, found, wrong⟩
        | portfolioChildCount wrong => exact ⟨rfl, children, own, found, wrong⟩
        | portfolioGate placed wrong => exact ⟨rfl, children, own, _, found, placed, wrong⟩
      · exact ⟨rfl, present⟩
      · exact ⟨rfl, present⟩
    · rintro ⟨ofShape, present⟩
      cases fault with
      | initialPositions =>
          exact .inl (.inl (.inl (.inl (.inl ⟨rfl, by simpa [Fault.Present] using present⟩))))
      | tooManyTriggers =>
          refine .inl (.inl (.inl (.inl (.inr ⟨rfl, ?_⟩))))
          simpa [Fault.Present, maxTriggers] using present
      | topLevelKind i => exact .inl (.inl (.inl (.inr ⟨i, rfl, present⟩)))
      | childCount i =>
          obtain ⟨children, own, found, wrong⟩ := present
          exact .inl (.inl (.inr ⟨i, children, own, found, .childCount wrong⟩))
      | dateChildCount i =>
          obtain ⟨children, own, found, wrong⟩ := present
          exact .inl (.inl (.inr ⟨i, children, own, found, .dateChildCount wrong⟩))
      | portfolioChildCount i =>
          obtain ⟨children, own, found, wrong⟩ := present
          exact .inl (.inl (.inr ⟨i, children, own, found, .portfolioChildCount wrong⟩))
      | portfolioGate i j =>
          obtain ⟨children, own, gate, found, placed, wrong⟩ := present
          exact .inl (.inl (.inr ⟨i, children, own, found, .portfolioGate placed wrong⟩))
      | unsupportedOwnAction i k => exact .inl (.inr ⟨i, k, rfl, present⟩)
      | repeatedAction kind => exact .inr ⟨kind, rfl, present⟩
      | actionCount _ => contradiction
      | leafAction _ _ _ => contradiction

/-! ### The report -/

theorem covers_violations : Covers strategy.violations (·.Present strategy) := by
  refine (strategy.covers_shapeViolations.append strategy.covers_leafViolations ?_).congr ?_
  · rintro fault ⟨ofShape, -⟩ ⟨ofLeaf, -⟩
    rw [ofShape] at ofLeaf
    contradiction
  · intro fault
    cases fault.isOfLeaf <;> simp

end Strategy

/-- Among the faults of the shape, the rule and the place tell which one it is. -/
theorem Fault.eq_of_place {fault other : Fault} (ofShape : fault.isOfLeaf = false)
    (placed : fault.location ≠ none) (code : other.code = fault.code)
    (same : other.location = fault.location) : other = fault := by
  cases other with
  | leafAction rule leaf position =>
      cases rule <;> cases fault <;> simp_all [Fault.code, LeafRule.code, isOfLeaf]
  | _ => cases fault <;> simp_all [Fault.code, Fault.location, isOfLeaf]

/-- A fault of the shape is reported, at its place, if and only if it is there. -/
theorem Strategy.exists_entry_iff_present {strategy : Strategy} {fault : Fault} {location : Location}
    (ofShape : fault.isOfLeaf = false) (placed : fault.location = some location) :
    (∃ entry ∈ strategy.diagnostics, entry.code = fault.code ∧ entry.path = some location.path) ↔
      fault.Present strategy := by
  obtain ⟨faults, -, exact, labels⟩ := strategy.covers_violations
  refine Iff.trans ?_ (exact fault)
  constructor
  · rintro ⟨_, member, code, path⟩
    obtain ⟨violation, broken, rfl⟩ := List.mem_map.mp member
    obtain ⟨place, located, samePath⟩ := Option.map_eq_some_iff.mp path
    obtain rfl := Location.path_injective samePath
    have label := List.mem_map_of_mem (f := Violation.label) broken
    rw [labels] at label
    obtain ⟨other, listed, same⟩ := List.mem_map.mp label
    obtain ⟨sameCode, samePlace⟩ := Prod.mk.inj same
    obtain rfl : other = fault := by
      refine Fault.eq_of_place ofShape (by simp [placed]) (sameCode.trans code) ?_
      rw [placed, ← located]
      exact samePlace
    exact listed
  · intro listed
    have label := List.mem_map_of_mem (f := Fault.label) listed
    rw [← labels] at label
    obtain ⟨violation, broken, same⟩ := List.mem_map.mp label
    obtain ⟨sameCode, samePlace⟩ := Prod.mk.inj same
    refine ⟨violation.diagnostic, List.mem_map_of_mem broken, sameCode, ?_⟩
    rw [Violation.diagnostic, samePlace, placed, Option.map_some]

/-- Only a repeated kind of action is in no single place. -/
theorem Fault.location_eq_none_iff {fault : Fault} : fault.location = none ↔ fault.code = "V009" := by
  cases fault with
  | leafAction rule leaf position => cases rule <;> simp [location, code, LeafRule.code]
  | _ => simp [location, code]

theorem Breach.startsWith_code_of_shape {breach : Breach} (ofShape : breach.isOfLeaf = false) :
    breach.code.startsWith "V" := by
  cases breach <;> simp_all [code, isOfLeaf]

namespace Strategy

/-- The report has exactly one entry for each fault of the strategy, with its code and the path of its
place, and no other entry; the faults are listed in the order of the report. Each path leads to a place
in the strategy and to no other, and only repeated kinds of action have none. What concerns the shape
comes before what concerns leaves. The numbers of a strategy are finite. -/
theorem report_exact (strategy : Strategy) :
    (∃ faults : List Fault, faults.Nodup ∧ (∀ fault, fault ∈ faults ↔ fault.Present strategy) ∧
      strategy.diagnostics.map (fun entry => (entry.code, entry.path)) =
        faults.map fun fault => (fault.code, fault.location.map Location.path)) ∧
    (∀ entry ∈ strategy.diagnostics, ∀ path, entry.path = some path →
      ∃ location : Location, strategy.Contains location ∧ location.path = path ∧
        ∀ other : Location, other.path = path → other = location) ∧
    (∀ entry ∈ strategy.diagnostics, entry.path = none ↔ entry.code = "V009") ∧
    ∃ shape leaves, strategy.diagnostics = shape ++ leaves ∧
      (∀ entry ∈ shape, entry.code.startsWith "V") ∧
        ∀ entry ∈ leaves, entry.code.startsWith "T" := by
  obtain ⟨faults, once, exact, labels⟩ := strategy.covers_violations
  have entries : strategy.diagnostics.map (fun entry => (entry.code, entry.path)) =
      faults.map fun fault => (fault.code, fault.location.map Location.path) := by
    have placed := congrArg (List.map fun label : String × Option Location =>
      (label.1, label.2.map Location.path)) labels
    rw [List.map_map, List.map_map] at placed
    rw [diagnostics, List.map_map]
    exact placed
  have about {entry : Diagnostic} (member : entry ∈ strategy.diagnostics) :
      ∃ fault ∈ faults, fault.code = entry.code ∧
        fault.location.map Location.path = entry.path := by
    have among := List.mem_map_of_mem (f := fun entry : Diagnostic => (entry.code, entry.path)) member
    rw [entries, List.mem_map] at among
    obtain ⟨fault, present, same⟩ := among
    obtain ⟨code, path⟩ := Prod.mk.inj same
    exact ⟨fault, present, code, path⟩
  refine ⟨⟨faults, once, exact, entries⟩, ?paths, ?null, ?order⟩
  case paths =>
    intro entry member path found
    obtain ⟨fault, present, -, placed⟩ := about member
    rw [found, Option.map_eq_some_iff] at placed
    obtain ⟨location, located, rfl⟩ := placed
    exact ⟨location, contains_of_present ((exact fault).mp present) located, rfl,
      fun _ same => Location.path_injective same⟩
  case null =>
    intro entry member
    obtain ⟨fault, -, code, placed⟩ := about member
    rw [← code, ← placed, Option.map_eq_none_iff]
    exact Fault.location_eq_none_iff
  case order =>
    refine ⟨strategy.shapeViolations.map Violation.diagnostic,
      strategy.leafViolations.map Violation.diagnostic, List.map_append, ?_, ?_⟩
    · intro entry member
      obtain ⟨violation, broken, rfl⟩ := List.mem_map.mp member
      exact Breach.startsWith_code_of_shape (isOfLeaf_of_mem_shapeViolations broken)
    · intro entry member
      obtain ⟨violation, broken, rfl⟩ := List.mem_map.mp member
      exact Violation.hasLeafCode_iff.mpr (isOfLeaf_of_mem_leafViolations broken)

end Strategy

end VolBacktest
