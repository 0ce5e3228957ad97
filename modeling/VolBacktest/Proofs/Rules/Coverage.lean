import Mathlib.Data.List.Sigma
import VolBacktest.Proofs.Rules.Faults
import VolBacktest.Proofs.Rules.Paths

/-!
# Entries that cover faults

A list of entries covers a set of faults if it has one entry for each of them, with its code and its
place, and no other entry. This is kept when lists are put together, as long as no fault is on both
sides. Each rule can therefore be looked at alone and at a single node of the strategy; that two nodes
share no fault is seen from the places in it. The rules for leaves are covered here, action by action.
-/

namespace VolBacktest

/-- The code and the place of an entry. -/
def Violation.label (violation : Violation) : String × Option Location :=
  (violation.breach.code, violation.location)

def Fault.label (fault : Fault) : String × Option Location := (fault.code, fault.location)

/-- The entries stand for the faults that are present, each of which has one entry. -/
def Covers (entries : List Violation) (present : Fault → Prop) : Prop :=
  ∃ faults : List Fault, faults.Nodup ∧ (∀ fault, fault ∈ faults ↔ present fault) ∧
    entries.map Violation.label = faults.map Fault.label

namespace Covers

variable {entries more : List Violation} {present other : Fault → Prop}

theorem congr (covers : Covers entries present) (same : ∀ fault, present fault ↔ other fault) :
    Covers entries other := by
  obtain ⟨faults, once, exact, labels⟩ := covers
  exact ⟨faults, once, fun fault => (exact fault).trans (same fault), labels⟩

theorem nil (absent : ∀ fault, ¬present fault) : Covers [] present :=
  ⟨[], List.nodup_nil, fun fault => by simp [absent fault], rfl⟩

theorem singleton {violation : Violation} {fault : Fault} (same : violation.label = fault.label) :
    Covers [violation] (· = fault) :=
  ⟨[fault], List.nodup_singleton fault, fun _ => List.mem_singleton, by simp [same]⟩

theorem append (first : Covers entries present) (second : Covers more other)
    (apart : ∀ fault, present fault → ¬other fault) :
    Covers (entries ++ more) fun fault => present fault ∨ other fault := by
  obtain ⟨faults, once, exact, labels⟩ := first
  obtain ⟨rest, onceToo, exactToo, labelsToo⟩ := second
  refine ⟨faults ++ rest, List.nodup_append'.mpr ⟨once, onceToo, ?_⟩, ?_, ?_⟩
  · intro fault here there
    exact apart fault ((exact fault).mp here) ((exactToo fault).mp there)
  · intro fault
    rw [List.mem_append, exact, exactToo]
  · rw [List.map_append, List.map_append, labels, labelsToo]

/-- What is reported unless a condition holds, for a fault that consists in its failure. -/
theorem reportUnless {condition : Prop} [Decidable condition] {violation : Violation}
    (fault : Fault) (same : violation.label = fault.label) :
    Covers (reportUnless condition violation) fun found => found = fault ∧ ¬condition := by
  rw [VolBacktest.reportUnless]
  by_cases holds : condition
  · rw [if_pos holds]
    exact .nil fun _ broken => broken.2 holds
  · rw [if_neg holds]
    exact (singleton same).congr fun _ => by simp [holds]

/-- A report item by item; different items do not share faults. -/
theorem flatMap {α : Type} {items : List α} (distinct : items.Nodup) (report : α → List Violation)
    (faulty : α → Fault → Prop) (one : ∀ a ∈ items, Covers (report a) (faulty a))
    (apart : ∀ a ∈ items, ∀ b ∈ items, ∀ fault, faulty a fault → faulty b fault → a = b) :
    Covers (items.flatMap report) fun fault => ∃ a ∈ items, faulty a fault := by
  induction items with
  | nil => exact .nil fun _ ⟨_, member, _⟩ => List.not_mem_nil member
  | cons a rest ih =>
      obtain ⟨fresh, distinct⟩ := List.nodup_cons.mp distinct
      have head := one a List.mem_cons_self
      have tail := ih distinct (fun b member => one b (List.mem_cons_of_mem a member))
        (fun b member c memberToo =>
          apart b (List.mem_cons_of_mem a member) c (List.mem_cons_of_mem a memberToo))
      refine (head.append tail ?_).congr fun fault => by simp
      rintro fault here ⟨b, member, there⟩
      obtain rfl := apart a List.mem_cons_self b (List.mem_cons_of_mem a member) fault here there
      exact fresh member

/-- The same for items that report where they stand. -/
theorem zipIdx {α : Type} (items : List α) (report : α → Nat → List Violation)
    (faulty : α → Nat → Fault → Prop) (one : ∀ a i, Covers (report a i) (faulty a i))
    (apart : ∀ a b i j fault, faulty a i fault → faulty b j fault → i = j) :
    Covers (items.zipIdx.flatMap fun item => report item.1 item.2) fun fault =>
      ∃ (i : Nat) (a : α), items[i]? = some a ∧ faulty a i fault := by
  have distinct : items.zipIdx.Nodup := .of_map Prod.snd (List.nodup_zipIdx_map_snd items)
  have indexed := flatMap distinct (fun item => report item.1 item.2)
    (fun item => faulty item.1 item.2) (fun item _ => one item.1 item.2) ?apart
  · refine indexed.congr fun fault => ?_
    simp only [Prod.exists, List.mk_mem_zipIdx_iff_getElem?]
    exact exists_comm
  case apart =>
    rintro ⟨a, i⟩ here ⟨b, j⟩ there fault ofFirst ofSecond
    obtain rfl := apart a b i j fault ofFirst ofSecond
    rw [List.mk_mem_zipIdx_iff_getElem?] at here there
    rw [Option.some.inj (here.symm.trans there)]

end Covers

/-! ### Actions of a leaf -/

section OfLeaf

variable {leaf : Location} {position : Nat} {trigger : Trigger}

/-- The fault that one action of a leaf breaks this rule. -/
def BreaksAt (leaf : Location) (position : Nat) (trigger : Trigger) (action : Action)
    (rule : LeafRule) (fault : Fault) : Prop :=
  fault = .leafAction rule leaf position ∧ rule.BrokenBy trigger action

/-- One rule for one action gives one entry, or none. -/
theorem covers_rule {action : Action} {breaches : List Breach} {rule : LeafRule}
    (kept : ¬rule.BrokenBy trigger action → breaches = [])
    (reported : rule.BrokenBy trigger action →
      ∃ breach, breaches = [breach] ∧ breach.code = rule.code) :
    Covers (breaches.map (·.at leaf)) (BreaksAt leaf position trigger action rule) := by
  by_cases broken : rule.BrokenBy trigger action
  · obtain ⟨breach, rfl, code⟩ := reported broken
    have same : (breach.at leaf).label = (Fault.leafAction rule leaf position).label :=
      Prod.ext code rfl
    exact (Covers.singleton same).congr fun _ => by simp [BreaksAt, broken]
  · rw [kept broken]
    exact .nil fun _ found => broken found.2

/-- An action is judged by three rules, one after the other. -/
theorem covers_rules {action : Action} {first second third : List Breach} {a b c : LeafRule}
    (ofFirst : Covers (first.map (·.at leaf)) (BreaksAt leaf position trigger action a))
    (ofSecond : Covers (second.map (·.at leaf)) (BreaksAt leaf position trigger action b))
    (ofThird : Covers (third.map (·.at leaf)) (BreaksAt leaf position trigger action c))
    (distinct : [a, b, c].Nodup)
    (only : ∀ rule : LeafRule, rule.BrokenBy trigger action → rule ∈ [a, b, c]) :
    Covers ((first ++ second ++ third).map (·.at leaf)) fun fault =>
      ∃ rule, BreaksAt leaf position trigger action rule fault := by
  have apart {rule other : LeafRule} (different : rule ≠ other) (fault : Fault)
      (one : BreaksAt leaf position trigger action rule fault) :
      ¬BreaksAt leaf position trigger action other fault := by
    rintro ⟨same, -⟩
    exact different (Fault.leafAction.inj (one.1.symm.trans same)).1
  simp only [List.nodup_cons, List.mem_cons, List.not_mem_nil, not_or] at distinct
  obtain ⟨⟨ab, ac, -⟩, ⟨bc, -⟩, -⟩ := distinct
  rw [List.map_append, List.map_append]
  refine ((ofFirst.append ofSecond (apart ab)).append ofThird ?_).congr fun fault => ?_
  · rintro fault (one | one)
    · exact apart ac fault one
    · exact apart bc fault one
  · constructor
    · rintro ((one | one) | one)
      · exact ⟨a, one⟩
      · exact ⟨b, one⟩
      · exact ⟨c, one⟩
    · rintro ⟨rule, one⟩
      have among := only rule one.2
      simp only [List.mem_cons, List.not_mem_nil, or_false] at among
      obtain rfl | rfl | rfl := among
      · exact .inl (.inl one)
      · exact .inl (.inr one)
      · exact .inr one

theorem EnterAction.covers_breaches (trigger : Trigger) (action : EnterAction) :
    Covers ((action.breaches trigger).map (·.at leaf)) fun fault =>
      ∃ rule, BreaksAt leaf position trigger (.enter action) rule fault := by
  apply covers_rules (a := .enterDuration) (b := .enterInstrument) (c := .enterSize)
  · apply covers_rule
    · intro kept
      cases trigger <;> simp_all [LeafRule.BrokenBy, Trigger.frequency]
    · rintro ⟨frequency, periodic, other⟩
      cases trigger <;> simp_all [Trigger.frequency, Breach.code, LeafRule.code]
  · apply covers_rule
    · intro suited
      have missing : action.instruments.find? (fun instrument => !instrument.kind.isEquityVol) =
          none := by simpa [LeafRule.BrokenBy] using suited
      rw [missing]
    · rintro ⟨instrument, member, unsuited⟩
      have any : (action.instruments.find? fun instrument =>
          !instrument.kind.isEquityVol).isSome := by
        rw [List.find?_isSome]
        exact ⟨instrument, member, by simp [unsuited]⟩
      obtain ⟨first, found⟩ := Option.isSome_iff_exists.mp any
      rw [found]
      exact ⟨_, rfl, rfl⟩
  · apply covers_rule
    · intro sized
      simpa [LeafRule.BrokenBy] using sized
    · intro unsized
      rw [if_pos (by simpa [LeafRule.BrokenBy] using unsized)]
      exact ⟨_, rfl, rfl⟩
  · decide
  · intro rule broken
    cases rule <;> first | contradiction | simp

theorem HedgeAction.covers_breaches (trigger : Trigger) (action : HedgeAction) :
    Covers ((action.breaches trigger).map (·.at leaf)) fun fault =>
      ∃ rule, BreaksAt leaf position trigger (.hedge action) rule fault := by
  apply covers_rules (a := .hedgeDuration) (b := .hedgeRisk) (c := .hedgeFrequency)
  · apply covers_rule
    · intro kept
      exact if_neg kept
    · intro broken
      exact ⟨_, if_pos broken, rfl⟩
  · apply covers_rule
    · intro kept
      exact if_pos (not_not.mp kept)
    · intro broken
      exact ⟨_, if_neg broken, rfl⟩
  · apply covers_rule
    · intro kept
      exact if_pos (not_not.mp kept)
    · intro broken
      exact ⟨_, if_neg broken, rfl⟩
  · decide
  · intro rule broken
    cases rule <;> first | contradiction | simp

theorem Action.covers_breaches (trigger : Trigger) (action : Action) :
    Covers ((action.breaches trigger).map (·.at leaf)) fun fault =>
      ∃ rule, BreaksAt leaf position trigger action rule fault := by
  -- An action that cannot be executed breaks this rule and no other.
  have unsupported {action : Action} (breach : Breach) (code : breach.code = "T008")
      (broken : LeafRule.actionKind.BrokenBy trigger action)
      (only : ∀ rule : LeafRule, rule.BrokenBy trigger action → rule = .actionKind) :
      Covers ([breach].map (·.at leaf)) fun fault =>
        ∃ rule, BreaksAt leaf position trigger action rule fault := by
    have one : Covers ([breach].map (·.at leaf))
        (BreaksAt leaf position trigger action .actionKind) :=
      covers_rule (fun kept => absurd broken kept) (fun _ => ⟨breach, rfl, code⟩)
    refine one.congr fun fault => ⟨fun found => ⟨_, found⟩, ?_⟩
    rintro ⟨rule, found⟩
    exact only rule found.2 ▸ found
  cases action with
  | enter action => exact action.covers_breaches trigger
  | hedge action => exact action.covers_breaches trigger
  | exit =>
      apply Covers.nil
      rintro fault ⟨rule, -, broken⟩
      cases rule <;> contradiction
  | addTrade action =>
      refine unsupported _ rfl trivial ?_
      intro rule broken
      cases rule <;> first | contradiction | rfl
  | rebalance action =>
      refine unsupported _ rfl trivial ?_
      intro rule broken
      cases rule <;> first | contradiction | rfl

/-- The fault is one of a leaf: it has not exactly one action, or an action of it breaks a rule. -/
def Leaf.IsFaulty (leaf : Leaf) (fault : Fault) : Prop :=
  (fault = .actionCount leaf.location ∧ leaf.trigger.actions.length ≠ 1) ∨
    ∃ (position : Nat) (action : Action), leaf.trigger.actions[position]? = some action ∧
      ∃ rule, BreaksAt leaf.location position leaf.trigger action rule fault

theorem Leaf.covers_violations (leaf : Leaf) : Covers leaf.violations leaf.IsFaulty := by
  let ⟨trigger, location⟩ := leaf
  let count := (Breach.actionCount trigger.kind trigger.actions.length).at location
  let report (action : Action) (_ : Nat) := (action.breaches trigger).map (·.at location)
  have single : Covers (reportUnless (trigger.actions.length = 1) count)
      fun fault => fault = .actionCount location ∧ trigger.actions.length ≠ 1 :=
    .reportUnless _ rfl
  have actions := Covers.zipIdx trigger.actions report
    (fun action position fault => ∃ rule, BreaksAt location position trigger action rule fault)
    (fun action _ => action.covers_breaches trigger) (by
      rintro _ _ i j _ ⟨_, rfl, -⟩ ⟨_, same, -⟩
      cases same
      rfl)
  have parts : Leaf.violations ⟨trigger, location⟩ =
      reportUnless (trigger.actions.length = 1) count ++
        trigger.actions.zipIdx.flatMap fun item => report item.1 item.2 := by
    rw [Leaf.violations, Trigger.leafBreaches, List.map_append, List.map_flatMap]
    congr 1
    · rw [reportUnless]
      split <;> rfl
    · conv => lhs; rw [← List.zipIdx_map_fst 0 trigger.actions, List.flatMap_map]
  rw [parts]
  refine single.append actions ?_
  rintro fault ⟨rfl, -⟩ ⟨_, _, _, _, same, -⟩
  cases same

end OfLeaf

/-! ### Leaves -/

theorem Trigger.trigger?_of_mem_leaves {trigger : Trigger} {index : Nat} {leaf : Leaf}
    (member : leaf ∈ trigger.leaves index) : leaf.location.trigger? = some index := by
  by_cases single : trigger.kind = .aggregate
  · cases trigger with
    | aggregate children own =>
        obtain ⟨_, _, _, _, rfl⟩ := mem_leaves_aggregate_iff.mp member
        rfl
    | _ => contradiction
  · rw [leaves_of_single single, List.mem_singleton] at member
    rw [member]
    rfl

theorem Trigger.nodup_leaves (trigger : Trigger) (index : Nat) : (trigger.leaves index).Nodup := by
  by_cases single : trigger.kind = .aggregate
  · cases trigger with
    | aggregate children own =>
        have distinct : children.zipIdx.Nodup := .of_map Prod.snd (List.nodup_zipIdx_map_snd _)
        refine (distinct.filter _).map ?_
        rintro ⟨first, i⟩ ⟨second, j⟩ same
        cases same
        rfl
    | _ => contradiction
  · rw [leaves_of_single single]
    exact List.nodup_singleton _

namespace Strategy

variable (strategy : Strategy)

theorem nodup_leaves : strategy.leaves.Nodup := by
  rw [leaves, List.nodup_flatMap]
  refine ⟨fun item _ => item.1.nodup_leaves item.2, ?_⟩
  have indices := List.pairwise_map.mp (List.nodup_zipIdx_map_snd strategy.triggers)
  refine indices.imp fun {first second} different leaf here there => different ?_
  have inFirst := Trigger.trigger?_of_mem_leaves here
  have inSecond := Trigger.trigger?_of_mem_leaves there
  exact Option.some.inj (inFirst.symm.trans inSecond)

theorem covers_leafViolations :
    Covers strategy.leafViolations fun fault => fault.isOfLeaf ∧ fault.Present strategy := by
  have leaves := Covers.flatMap strategy.nodup_leaves Leaf.violations Leaf.IsFaulty
    (fun leaf _ => leaf.covers_violations) ?apart
  · refine leaves.congr fun fault => ⟨?_, ?_⟩
    · rintro ⟨⟨trigger, location⟩, member, ⟨rfl, count⟩ | ⟨k, action, owned, rule, rfl, broken⟩⟩
      · exact ⟨rfl, trigger, mem_leaves_iff_leafAt.mp member, count⟩
      · exact ⟨rfl, trigger, action, mem_leaves_iff_leafAt.mp member, owned, broken⟩
    · rintro ⟨ofLeaf, present⟩
      cases fault with
      | actionCount location =>
          obtain ⟨trigger, leafAt, count⟩ := present
          exact ⟨⟨trigger, location⟩, mem_leaves_iff_leafAt.mpr leafAt, .inl ⟨rfl, count⟩⟩
      | leafAction rule location k =>
          obtain ⟨trigger, action, leafAt, owned, broken⟩ := present
          exact ⟨⟨trigger, location⟩, mem_leaves_iff_leafAt.mpr leafAt,
            .inr ⟨k, action, owned, rule, rfl, broken⟩⟩
      | _ => contradiction
  case apart =>
    -- A leaf is determined by its location, which is part of each of its faults.
    rintro ⟨first, here⟩ atFirst ⟨second, there⟩ atSecond fault ofFirst ofSecond
    have same : here = there := by
      obtain ⟨rfl, -⟩ | ⟨_, _, _, _, rfl, -⟩ := ofFirst <;>
        obtain ⟨same, -⟩ | ⟨_, _, _, _, same, -⟩ := ofSecond <;> cases same <;> rfl
    subst same
    have one : strategy.LeafAt here first := mem_leaves_iff_leafAt.mp atFirst
    have other : strategy.LeafAt here second := mem_leaves_iff_leafAt.mp atSecond
    rw [one.unique other]

end Strategy

end VolBacktest
