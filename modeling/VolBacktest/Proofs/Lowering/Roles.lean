import VolBacktest.Proofs.Lowering.LeafWalk
import VolBacktest.Proofs.Lowering.Reference
import VolBacktest.Proofs.Rules.Paths
import VolBacktest.Proofs.Rules.Report

/-!
# The roles of the children of an aggregate

The children of an aggregate are split into those that look at the calendar and those that look at the
portfolio, in their order; the others play no role. Splitting undoes weaving: whatever way date and portfolio
children are woven into a list, with any other children between them, they come out again as they went in. So
the signal does not depend on the way. The rules on the composition of an aggregate count the same parts.
-/

namespace VolBacktest

/-- The children are these date and these portfolio children, those of each kind in their order, with any
children of other kinds anywhere between them. -/
inductive Trigger.Woven : List (Guarded (List Date)) → List (Guarded LevelRequirement) →
    List Trigger → Prop where
  | nil : Woven [] [] []
  | date {dates : List (Guarded (List Date))} {gates : List (Guarded LevelRequirement)}
      {children : List Trigger} (first : Guarded (List Date)) (rest : Woven dates gates children) :
      Woven (first :: dates) gates (.date first :: children)
  | portfolio {dates : List (Guarded (List Date))} {gates : List (Guarded LevelRequirement)}
      {children : List Trigger} (first : Guarded LevelRequirement)
      (rest : Woven dates gates children) :
      Woven dates (first :: gates) (.portfolio first :: children)
  | other {dates : List (Guarded (List Date))} {gates : List (Guarded LevelRequirement)}
      {children : List Trigger} {first : Trigger} (notDate : first.kind ≠ .date)
      (notPortfolio : first.kind ≠ .portfolio) (rest : Woven dates gates children) :
      Woven dates gates (first :: children)

/-! ### Splitting -/

namespace AggregateParts

variable {children others : List Trigger}

theorem ofChildren_date (first : Guarded (List Date)) (children : List Trigger) :
    ofChildren (.date first :: children) =
      ⟨first :: (ofChildren children).dates, (ofChildren children).portfolios⟩ := by
  rw [ofChildren_eq, ofChildren_eq]
  rfl

theorem ofChildren_portfolio (first : Guarded LevelRequirement) (children : List Trigger) :
    ofChildren (.portfolio first :: children) =
      ⟨(ofChildren children).dates, first :: (ofChildren children).portfolios⟩ := by
  rw [ofChildren_eq, ofChildren_eq]
  rfl

theorem ofChildren_other {first : Trigger} (notDate : first.kind ≠ .date)
    (notPortfolio : first.kind ≠ .portfolio) (children : List Trigger) :
    ofChildren (first :: children) = ofChildren children := by
  rw [ofChildren_eq, ofChildren_eq]
  cases first with
  | date _ => contradiction
  | portfolio _ => contradiction
  | periodic | aggregate | market | risk => rfl

/-- The children are woven of their parts. -/
theorem woven_ofChildren (children : List Trigger) :
    Trigger.Woven (ofChildren children).dates (ofChildren children).portfolios children := by
  rw [dates_ofChildren, portfolios_ofChildren]
  induction children with
  | nil => exact .nil
  | cons first rest woven =>
      cases first with
      | date dates => exact woven.date dates
      | portfolio gate => exact woven.portfolio gate
      | periodic | aggregate | market | risk => exact woven.other nofun nofun

/-- The parts that children are woven of are those they are split into. The induction is on the weaving, a
case for each child that may come next. -/
theorem ofChildren_of_woven {dates : List (Guarded (List Date))}
    {gates : List (Guarded LevelRequirement)} (woven : Trigger.Woven dates gates children) :
    ofChildren children = ⟨dates, gates⟩ := by
  induction woven with
  | nil => rfl
  | date first _ split => rw [ofChildren_date, split]
  | portfolio first _ split => rw [ofChildren_portfolio, split]
  | other notDate notPortfolio _ split => rw [ofChildren_other notDate notPortfolio, split]

theorem ofChildren_append (children others : List Trigger) :
    ofChildren (children ++ others) =
      ⟨(ofChildren children).dates ++ (ofChildren others).dates,
        (ofChildren children).portfolios ++ (ofChildren others).portfolios⟩ := by
  simp only [ofChildren_eq, List.filterMap_append]

/-- A child of another kind may stand anywhere. -/
theorem ofChildren_insert {child : Trigger} (notDate : child.kind ≠ .date)
    (notPortfolio : child.kind ≠ .portfolio) (before after : List Trigger) :
    ofChildren (before ++ child :: after) = ofChildren (before ++ after) := by
  rw [ofChildren_append, ofChildren_other notDate notPortfolio, ofChildren_append]

end AggregateParts

namespace Trigger.Woven

variable {dates : List (Guarded (List Date))} {gates : List (Guarded LevelRequirement)}
  {children : List Trigger}

theorem filter_date (woven : Woven dates gates children) :
    children.filter (·.kind = .date) = dates.map .date := by
  induction woven with
  | nil => rfl
  | date first _ ih => rw [List.filter_cons_of_pos rfl, ih, List.map_cons]
  | portfolio first _ ih => rw [List.filter_cons_of_neg (by simp [kind]), ih]
  | other notDate _ _ ih => rw [List.filter_cons_of_neg (by simpa using notDate), ih]

theorem filter_portfolio (woven : Woven dates gates children) :
    children.filter (·.kind = .portfolio) = gates.map .portfolio := by
  induction woven with
  | nil => rfl
  | date first _ ih => rw [List.filter_cons_of_neg (by simp [kind]), ih]
  | portfolio first _ ih => rw [List.filter_cons_of_pos rfl, ih, List.map_cons]
  | other _ notPortfolio _ ih => rw [List.filter_cons_of_neg (by simpa using notPortfolio), ih]

end Trigger.Woven

/-! ### Signals -/

namespace Signal

variable {children others : List Trigger}

theorem ofChildren_congr
    (same : AggregateParts.ofChildren others = AggregateParts.ofChildren children) :
    ofChildren others = ofChildren children := by
  rw [ofChildren, same, ofChildren]

theorem isSome_ofChildren_iff :
    (ofChildren children).isSome ↔
      (∃ child ∈ children, child.kind = .date) ∧ ∃ child ∈ children, child.kind = .portfolio := by
  have noDate : (AggregateParts.ofChildren children).dates = [] ↔
      ¬∃ child ∈ children, child.kind = .date := by
    simp [List.filterMap_eq_nil_iff, Trigger.asDate_eq_none_iff]
  have noPortfolio : (AggregateParts.ofChildren children).portfolios = [] ↔
      ¬∃ child ∈ children, child.kind = .portfolio := by
    simp [List.filterMap_eq_nil_iff, Trigger.asPortfolio_eq_none_iff]
  rw [← not_iff_not, not_and_or, ← noDate, ← noPortfolio, ofChildren_eq_bind]
  cases (AggregateParts.ofChildren children).dates <;>
    cases (AggregateParts.ofChildren children).portfolios <;> simp

/-- The first part for a role is that of the first child of the kind. -/
theorem head?_filterMap_role {ρ : Type} {role : Trigger → Option ρ} {wanted : TriggerKind}
    (silent : ∀ child, role child = none ↔ child.kind ≠ wanted) (children : List Trigger) :
    (children.filterMap role).head? = (children.find? (·.kind = wanted)).bind role := by
  induction children with
  | nil => rfl
  | cons first rest ih =>
      by_cases plays : first.kind = wanted
      · have fills : role first ≠ none := mt (silent first).mp (not_not.mpr plays)
        obtain ⟨part, isPart⟩ := Option.ne_none_iff_exists'.mp fills
        simp [plays, isPart]
      · simp [plays, (silent first).mpr plays, ih]

/-- Only the first child of each role is looked at. -/
theorem ofChildren_eq_of_first
    (dates : others.find? (·.kind = .date) = children.find? (·.kind = .date))
    (gates : others.find? (·.kind = .portfolio) = children.find? (·.kind = .portfolio)) :
    ofChildren others = ofChildren children := by
  simp only [ofChildren_eq_bind, AggregateParts.dates_ofChildren,
    AggregateParts.portfolios_ofChildren, head?_filterMap_role Trigger.asDate_eq_none_iff,
    head?_filterMap_role Trigger.asPortfolio_eq_none_iff, dates, gates]

end Signal

/-! ### Composition -/

/-- Nothing is said about the composition of the aggregate at this index. -/
def Strategy.PassesComposition (strategy : Strategy) (index : Nat) : Prop :=
  ∀ entry ∈ strategy.diagnostics, entry.path = some ("triggers[" ++ toString index ++ "]") →
    entry.code ≠ "V004" ∧ entry.code ≠ "V005" ∧ entry.code ≠ "V006"

namespace Strategy

variable {strategy : Strategy} {index : Nat}

/-- A fault at a trigger is not reported if and only if it is not there. -/
theorem forall_code_ne_iff (fault : Fault) (ofShape : fault.isOfLeaf = false)
    (placed : fault.location = some (.trigger index)) :
    (∀ entry ∈ strategy.diagnostics, entry.path = some ("triggers[" ++ toString index ++ "]") →
      entry.code ≠ fault.code) ↔ ¬fault.Present strategy := by
  rw [← exists_entry_iff_present ofShape placed, Location.path_trigger]
  constructor
  · rintro unsaid ⟨entry, member, code, path⟩
    exact unsaid entry member path code
  · intro unsaid entry member path code
    exact unsaid ⟨entry, member, code, path⟩

theorem passesComposition_iff_not_present :
    strategy.PassesComposition index ↔ ¬(Fault.childCount index).Present strategy ∧
      ¬(Fault.dateChildCount index).Present strategy ∧
        ¬(Fault.portfolioChildCount index).Present strategy := by
  rw [← forall_code_ne_iff (.childCount index) rfl rfl,
    ← forall_code_ne_iff (.dateChildCount index) rfl rfl,
    ← forall_code_ne_iff (.portfolioChildCount index) rfl rfl]
  simp only [PassesComposition, Fault.code, imp_and, forall_and]

/-- The three rules together leave the two pairs of a date and a portfolio child. -/
theorem passesComposition_iff {children : List Trigger} {own : List Action}
    (found : strategy.triggers[index]? = some (.aggregate children own)) :
    strategy.PassesComposition index ↔ ∃ dates gate,
      children = [.date dates, .portfolio gate] ∨ children = [.portfolio gate, .date dates] := by
  have here (sound : List Trigger → Prop) : ¬(∃ others changed,
      strategy.triggers[index]? = some (.aggregate others changed) ∧ ¬sound others) ↔
        sound children := by
    simp [found]
  rw [passesComposition_iff_not_present, ← AggregateParts.pair_iff, AggregateParts.length_dates,
    AggregateParts.length_portfolios]
  exact and_congr (here fun others => others.length = 2)
    (and_congr (here fun others => others.countP (fun child => child.kind = .date) = 1)
      (here fun others => others.countP (fun child => child.kind = .portfolio) = 1))

end Strategy

/-- A pair of a date and a portfolio child has no other children. -/
theorem AggregateParts.perm_of_pair {children : List Trigger} {dates : Guarded (List Date)}
    {gate : Guarded LevelRequirement}
    (pair : children = [.date dates, .portfolio gate] ∨ children = [.portfolio gate, .date dates]) :
    children.Perm ((ofChildren children).dates.map .date ++
      (ofChildren children).portfolios.map .portfolio) := by
  obtain rfl | rfl := pair
  · exact .refl _
  · exact .swap _ _ _

/-! ### The laws of splitting -/

/-- Splitting keeps the date and the portfolio children in their order, and goes part by part over lists put
together. A signal needs a child of each of the two kinds. Neither a child of another kind, anywhere among the
children, nor another way of weaving the date and the portfolio children changes it; it only depends on the
first child of each of the two kinds. Where nothing is said about the composition of an aggregate, the
children are a pair, and the parts are all of them. -/
theorem AggregateParts.splits_children (children : List Trigger) :
    ((ofChildren children).dates.map .date = children.filter (·.kind = .date) ∧
        (ofChildren children).portfolios.map .portfolio =
          children.filter (·.kind = .portfolio)) ∧
      (∀ others, ofChildren (children ++ others) =
        ⟨(ofChildren children).dates ++ (ofChildren others).dates,
          (ofChildren children).portfolios ++ (ofChildren others).portfolios⟩) ∧
      ((Signal.ofChildren children).isSome ↔
        (∃ child ∈ children, child.kind = .date) ∧
          ∃ child ∈ children, child.kind = .portfolio) ∧
      (∀ before child after, children = before ++ after → child.kind ≠ .date →
        child.kind ≠ .portfolio →
          Signal.ofChildren (before ++ child :: after) = Signal.ofChildren children) ∧
      (∀ others,
        (Trigger.Woven (ofChildren children).dates (ofChildren children).portfolios others ↔
          ofChildren others = ofChildren children) ∧
        (Trigger.Woven (ofChildren children).dates (ofChildren children).portfolios others →
          Signal.ofChildren others = Signal.ofChildren children)) ∧
      (∀ others, others.find? (·.kind = .date) = children.find? (·.kind = .date) →
        others.find? (·.kind = .portfolio) = children.find? (·.kind = .portfolio) →
          Signal.ofChildren others = Signal.ofChildren children) ∧
      ∀ (strategy : Strategy) (index : Nat) (own : List Action),
        strategy.triggers[index]? = some (.aggregate children own) →
          (strategy.PassesComposition index ↔ ∃ dates gate,
            children = [.date dates, .portfolio gate] ∨
              children = [.portfolio gate, .date dates]) ∧
          (strategy.PassesComposition index →
            children.Perm ((ofChildren children).dates.map .date ++
              (ofChildren children).portfolios.map .portfolio)) := by
  have woven := woven_ofChildren children
  have reweave {others : List Trigger} :
      Trigger.Woven (ofChildren children).dates (ofChildren children).portfolios others ↔
        ofChildren others = ofChildren children := by
    constructor
    · exact ofChildren_of_woven
    · intro same
      rw [← same]
      exact woven_ofChildren others
  refine ⟨⟨woven.filter_date.symm, woven.filter_portfolio.symm⟩, ofChildren_append children,
    Signal.isSome_ofChildren_iff, ?insertion, ?weaving,
    fun others => Signal.ofChildren_eq_of_first, ?composition⟩
  case insertion =>
    rintro before child after rfl notDate notPortfolio
    exact Signal.ofChildren_congr (ofChildren_insert notDate notPortfolio before after)
  case weaving =>
    intro others
    exact ⟨reweave, fun otherwise => Signal.ofChildren_congr (reweave.mp otherwise)⟩
  case composition =>
    intro strategy index own found
    have pairs := Strategy.passesComposition_iff found
    refine ⟨pairs, fun passes => ?_⟩
    obtain ⟨dates, gate, pair⟩ := pairs.mp passes
    exact perm_of_pair pair

end VolBacktest
