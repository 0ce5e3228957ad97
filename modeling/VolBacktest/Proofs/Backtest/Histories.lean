import Mathlib.Data.List.Forall2
import Mathlib.Data.List.SplitLengths
import VolBacktest.Backtest.Result

/-!
# Rows of a history

A result nests its holdings: positions in snapshots, trades in transactions in batches. A history is flat,
and a place in it is told by an index for each level. `Tabulates` says that rows stand for places: one row
for each place that has something, in the order of the places. It is established level by level, because
the places of nested lists are ordered by the outer index first.

Nothing is needed beyond the lengths of the lists to undo a history: cut by them, the rows are the nested
lists again.
-/

namespace VolBacktest

section Tabulates

variable {ι α ρ : Type}

/-- One row for each place with something in it, in the order of the places. -/
def Tabulates (before : ι → ι → Prop) (shows : ι → ρ → Prop) (rows : List ρ) : Prop :=
  ∃ places : List ι, places.Pairwise before ∧ (∀ place, place ∈ places ↔ ∃ row, shows place row) ∧
    List.Forall₂ shows places rows

/-- The places of a list are its indices. -/
theorem tabulates_map (f : α → ρ) (items : List α) :
    Tabulates (· < ·) (fun (index : Nat) row => ∃ a, items[index]? = some a ∧ row = f a)
      (items.map f) := by
  refine ⟨List.range items.length, List.pairwise_lt_range, ?placed, ?shown⟩
  case placed =>
    intro index
    rw [List.mem_range]
    constructor
    · intro bound
      exact ⟨_, _, List.getElem?_eq_getElem bound, rfl⟩
    · rintro ⟨_, a, found, -⟩
      exact (List.getElem?_eq_some_iff.mp found).1
  case shown =>
    refine List.forall₂_iff_get.mpr ⟨by simp, ?_⟩
    intro index bound _
    exact ⟨items.get ⟨index, by simpa using bound⟩, by simp, by simp⟩

/-- The places inside of items are ordered by the items first. The induction is over the items, whose indices
move up by one behind another item. -/
theorem Tabulates.flatMap {before : ι → ι → Prop} {shows : α → ι → ρ → Prop} {view : α → List ρ}
    {items : List α} (each : ∀ a ∈ items, Tabulates before (shows a) (view a)) :
    Tabulates (Prod.Lex (· < ·) before)
      (fun (place : Nat × ι) row => ∃ a, items[place.1]? = some a ∧ shows a place.2 row)
      (items.flatMap view) := by
  induction items with
  | nil => exact ⟨[], .nil, by simp, .nil⟩
  | cons a rest ih =>
      obtain ⟨first, firstOrdered, firstPlaced, firstShown⟩ := each a List.mem_cons_self
      obtain ⟨later, laterOrdered, laterPlaced, laterShown⟩ :=
        ih fun other member => each other (List.mem_cons_of_mem a member)
      let behind (place : Nat × ι) : Nat × ι := (place.1 + 1, place.2)
      refine ⟨first.map (Prod.mk 0) ++ later.map behind, ?ordered, ?placed, ?shown⟩
      case ordered =>
        refine List.pairwise_append.mpr ⟨?_, ?_, ?_⟩
        · exact List.pairwise_map.mpr (firstOrdered.imp (Prod.Lex.right 0))
        · refine List.pairwise_map.mpr (laterOrdered.imp ?_)
          intro place other less
          cases less with
          | left _ _ less => exact .left _ _ (Nat.succ_lt_succ less)
          | right _ less => exact .right _ less
        · intro place atFirst other atLater
          obtain ⟨_, -, rfl⟩ := List.mem_map.mp atFirst
          obtain ⟨_, -, rfl⟩ := List.mem_map.mp atLater
          exact .left _ _ (Nat.succ_pos _)
      case placed =>
        rintro ⟨index, place⟩
        cases index with
        | zero => simp [behind, firstPlaced]
        | succ index => simp [behind, laterPlaced]
      case shown =>
        rw [List.flatMap_cons]
        refine List.rel_append ?_ ?_
        · refine List.forall₂_map_left_iff.mpr (firstShown.imp ?_)
          intro place row shown
          exact ⟨a, rfl, shown⟩
        · refine List.forall₂_map_left_iff.mpr (laterShown.imp ?_)
          intro place row shown
          exact shown

end Tabulates

/-- Lists put together are cut apart again by their lengths. -/
theorem splitLengths_flatten {α : Type} (lists : List (List α)) :
    (lists.map List.length).splitLengths lists.flatten = lists := by
  induction lists with
  | nil => rfl
  | cons first rest ih => simp [ih]

/-- Items without a view may be left out. -/
theorem flatMap_filter_of_nil {α β : Type} {view : α → List β} {keep : α → Bool}
    (empty : ∀ a, keep a = false → view a = []) (items : List α) :
    (items.filter keep).flatMap view = items.flatMap view := by
  induction items with
  | nil => rfl
  | cons a rest ih =>
      cases kept : keep a with
      | true => rw [List.filter_cons_of_pos kept, List.flatMap_cons, List.flatMap_cons, ih]
      | false =>
          rw [List.filter_cons_of_neg (by simp [kept]), List.flatMap_cons, empty a kept, ih,
            List.nil_append]

/-- What is held, without the date. -/
def PositionRow.holding (row : PositionRow) : Holding := ⟨row.quantity, row.instrument⟩

/-- What is traded, without the date and the kind of the transaction. -/
def TradeRow.holding (row : TradeRow) : Holding := ⟨row.quantity, row.instrument⟩

namespace TransactionBatch

/-- The batch without transactions that trade nothing. -/
def compacted (batch : TransactionBatch) : TransactionBatch :=
  { batch with transactions := batch.transactions.filter fun transaction => !transaction.trades.isEmpty }

/-- The rows of a batch. -/
def rows (batch : TransactionBatch) : List TradeRow :=
  batch.transactions.flatMap fun transaction =>
    transaction.trades.map fun holding =>
      ⟨batch.date, holding.quantity, transaction.kind, holding.instrument⟩

theorem rows_compacted (batch : TransactionBatch) : batch.compacted.rows = batch.rows := by
  refine flatMap_filter_of_nil ?_ batch.transactions
  intro transaction idle
  have none : transaction.trades = [] := by simpa using idle
  rw [none, List.map_nil]

end TransactionBatch

namespace BacktestResult

/-- The row is for the position with this index in the snapshot with that index. -/
def PositionAt (result : BacktestResult) (place : Nat × Nat) (row : PositionRow) : Prop :=
  ∃ snapshot, result.portfolio[place.1]? = some snapshot ∧
    ∃ holding, snapshot.positions[place.2]? = some holding ∧
      row = ⟨snapshot.date, holding.quantity, holding.instrument⟩

/-- The row is for the trade at these indices of batch, transaction and trade. -/
def TradeAt (result : BacktestResult) (place : Nat × Nat × Nat) (row : TradeRow) : Prop :=
  ∃ batch, result.transactions[place.1]? = some batch ∧
    ∃ transaction, batch.transactions[place.2.1]? = some transaction ∧
      ∃ holding, transaction.trades[place.2.2]? = some holding ∧
        row = ⟨batch.date, holding.quantity, transaction.kind, holding.instrument⟩

/-- The result without snapshots, batches and transactions that hold nothing. -/
def compacted (result : BacktestResult) : BacktestResult where
  risks := result.risks
  portfolio := result.portfolio.filter fun snapshot => !snapshot.positions.isEmpty
  transactions :=
    (result.transactions.map TransactionBatch.compacted).filter fun batch =>
      !batch.transactions.isEmpty

/-- The trades of each transaction, for each batch. -/
def trades (result : BacktestResult) : List (List (List Holding)) :=
  result.transactions.map fun batch => batch.transactions.map Transaction.trades

variable (result : BacktestResult)

theorem tabulates_portfolioHistory :
    Tabulates (Prod.Lex (· < ·) (· < ·)) result.PositionAt result.portfolioHistory :=
  Tabulates.flatMap fun (snapshot : Snapshot) _ => tabulates_map _ snapshot.positions

theorem tabulates_tradeHistory :
    Tabulates (Prod.Lex (· < ·) (Prod.Lex (· < ·) (· < ·))) result.TradeAt result.tradeHistory :=
  Tabulates.flatMap fun (_ : TransactionBatch) _ =>
    Tabulates.flatMap fun (transaction : Transaction) _ => tabulates_map _ transaction.trades

theorem holdings_portfolioHistory : result.portfolioHistory.map PositionRow.holding =
    (result.portfolio.map Snapshot.positions).flatten := by
  rw [portfolioHistory, List.map_flatMap, List.flatMap_def]
  congr 1
  refine List.map_congr_left fun snapshot _ => ?_
  rw [List.map_map]
  exact snapshot.positions.map_id

theorem holdings_tradeHistory :
    result.tradeHistory.map TradeRow.holding = result.trades.flatten.flatten := by
  have ofTransaction (batch : TransactionBatch) (transaction : Transaction) :
      (transaction.trades.map fun holding : Holding =>
        (⟨batch.date, holding.quantity, transaction.kind, holding.instrument⟩ : TradeRow)).map
          TradeRow.holding = transaction.trades := by
    rw [List.map_map]
    exact transaction.trades.map_id
  simp only [tradeHistory, List.map_flatMap, ofTransaction]
  simp only [List.flatMap_def, trades, List.flatten_flatten, List.map_map]
  rfl

theorem portfolioHistory_compacted :
    result.compacted.portfolioHistory = result.portfolioHistory := by
  refine flatMap_filter_of_nil ?_ result.portfolio
  intro snapshot bare
  have none : snapshot.positions = [] := by simpa using bare
  rw [none, List.map_nil]

theorem tradeHistory_eq :
    result.tradeHistory = result.transactions.flatMap TransactionBatch.rows := rfl

theorem tradeHistory_compacted : result.compacted.tradeHistory = result.tradeHistory := by
  rw [tradeHistory_eq, tradeHistory_eq, compacted, flatMap_filter_of_nil, List.flatMap_map]
  · simp only [TransactionBatch.rows_compacted]
  · intro batch idle
    have none : batch.transactions = [] := by simpa using idle
    rw [TransactionBatch.rows, none, List.flatMap_nil]

/-- A history has one row for each holding, in the order of the indices on each level, with the date and the
kind of transaction that the holding stands under. Cut by the lengths of the lists it gives back all that
is held and traded; what is empty shows nowhere in it, and lists put together have their histories put
together. The numbers of a result are finite. -/
theorem histories_exact :
    Tabulates (Prod.Lex (· < ·) (· < ·)) result.PositionAt result.portfolioHistory ∧
    Tabulates (Prod.Lex (· < ·) (Prod.Lex (· < ·) (· < ·))) result.TradeAt result.tradeHistory ∧
    (result.portfolio.map fun snapshot => snapshot.positions.length).splitLengths
        (result.portfolioHistory.map PositionRow.holding) =
      result.portfolio.map Snapshot.positions ∧
    (result.transactions.map fun batch => batch.transactions.length).splitLengths
        ((result.trades.flatten.map List.length).splitLengths
          (result.tradeHistory.map TradeRow.holding)) =
      result.trades ∧
    result.compacted.portfolioHistory = result.portfolioHistory ∧
    result.compacted.tradeHistory = result.tradeHistory ∧
    ∀ (other : BacktestResult) (risks : SortedMap String (List MeasurePoint)),
      let both : BacktestResult :=
        ⟨risks, result.portfolio ++ other.portfolio, result.transactions ++ other.transactions⟩
      both.portfolioHistory = result.portfolioHistory ++ other.portfolioHistory ∧
        both.tradeHistory = result.tradeHistory ++ other.tradeHistory := by
  refine ⟨result.tabulates_portfolioHistory, result.tabulates_tradeHistory, ?positions, ?trades,
    result.portfolioHistory_compacted, result.tradeHistory_compacted, ?both⟩
  case positions =>
    have cut := splitLengths_flatten (result.portfolio.map Snapshot.positions)
    rwa [List.map_map, ← holdings_portfolioHistory] at cut
  case trades =>
    have lengths : result.transactions.map (fun batch => batch.transactions.length) =
        result.trades.map List.length := by
      simp [BacktestResult.trades]
    rw [holdings_tradeHistory, splitLengths_flatten, lengths, splitLengths_flatten]
  case both =>
    intro other risks both
    exact ⟨List.flatMap_append, List.flatMap_append⟩

end BacktestResult

end VolBacktest
