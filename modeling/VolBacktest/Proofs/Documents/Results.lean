import VolBacktest.Backtest.Document
import VolBacktest.Proofs.Json.Structures

/-!
# Results read back

Points of a measure are restored whatever they are. A holding carries an object of any kind, so it is
restored if that object has been read before; the maps are in key order already, and a second reading
finds no key twice.
-/

namespace VolBacktest

open Json

theorem MeasurePoint.restores (point : MeasurePoint) (budget : Nat) :
    reader.Restores (budget + 1) point.json point := by
  have first := Fields.Encodes.required_of "date" (Reader.date_restores point.date budget)
  have second := Fields.Encodes.required_of "value" (Reader.number_restores point.value budget)
  exact ((first.map _).seq second).restores _ (by simp)

theorem MeasurePoint.reader_roundTrips : reader.RoundTrips json := by
  intro mode budget tree point read
  obtain ⟨rest, -, rfl, -⟩ := Fields.reader_ok read
  exact point.restores rest

theorem Holding.reader_roundTrips : reader.RoundTrips json := by
  intro mode budget tree holding read
  obtain ⟨rest, source, rfl, fields⟩ := Fields.reader_ok read
  obtain ⟨_, instrument, one, readInstrument, rfl⟩ := Fields.seq_ok fields
  obtain ⟨quantity, readQuantity, rfl⟩ := Fields.map_ok one
  have first := Fields.Encodes.required Reader.number_roundTrips readQuantity
  have second := Fields.Encodes.required Reader.object_roundTrips readInstrument
  exact ((first.map _).seq second).restores _ (by simp)

theorem Snapshot.reader_roundTrips : reader.RoundTrips json := by
  intro mode budget tree snapshot read
  obtain ⟨rest, source, rfl, fields⟩ := Fields.reader_ok read
  obtain ⟨_, positions, one, readPositions, rfl⟩ := Fields.seq_ok fields
  obtain ⟨date, readDate, rfl⟩ := Fields.map_ok one
  have first := Fields.Encodes.required Reader.date_roundTrips readDate
  have second := Fields.Encodes.required (Reader.list_roundTrips Holding.reader_roundTrips)
    readPositions
  exact ((first.map _).seq second).restores _ (by simp)

theorem Transaction.reader_roundTrips : reader.RoundTrips json := by
  intro mode budget tree transaction read
  obtain ⟨rest, source, rfl, fields⟩ := Fields.reader_ok read
  obtain ⟨_, trades, one, readTrades, rfl⟩ := Fields.seq_ok fields
  obtain ⟨kind, readKind, rfl⟩ := Fields.map_ok one
  have first := Fields.Encodes.required Reader.string_roundTrips readKind
  have second := Fields.Encodes.required (Reader.list_roundTrips Holding.reader_roundTrips)
    readTrades
  exact ((first.map _).seq second).restores _ (by simp)

theorem TransactionBatch.reader_roundTrips : reader.RoundTrips json := by
  intro mode budget tree batch read
  obtain ⟨rest, source, rfl, fields⟩ := Fields.reader_ok read
  obtain ⟨_, transactions, one, readTransactions, rfl⟩ := Fields.seq_ok fields
  obtain ⟨date, readDate, rfl⟩ := Fields.map_ok one
  have first := Fields.Encodes.required Reader.date_roundTrips readDate
  have second := Fields.Encodes.required (Reader.list_roundTrips Transaction.reader_roundTrips)
    readTransactions
  exact ((first.map _).seq second).restores _ (by simp)

/-- The parts that were left out are written as empty containers, for which there has to be room. -/
theorem BacktestResult.restores_of_reader {mode : Mode} {budget : Nat} {tree : Tree}
    {result : BacktestResult} (room : 2 ≤ budget) (read : reader mode budget tree = .ok result) :
    reader.Restores budget result.json result := by
  obtain ⟨rest, source, rfl, fields⟩ := Fields.reader_ok read
  obtain ⟨_, transactions, two, readTransactions, rfl⟩ := Fields.seq_ok fields
  obtain ⟨_, portfolio, one, readPortfolio, rfl⟩ := Fields.seq_ok two
  obtain ⟨risks, readRisks, rfl⟩ := Fields.map_ok one
  have positive : 0 < rest := Nat.lt_of_succ_lt_succ room
  have first := Fields.Encodes.defaulted
    (Reader.sortedMap_roundTrips (Reader.list_roundTrips MeasurePoint.reader_roundTrips))
    (Reader.sortedMap_restores_empty _ positive) readRisks
  have second := Fields.Encodes.defaulted (Reader.list_roundTrips Snapshot.reader_roundTrips)
    (Reader.list_restores_nil _ positive) readPortfolio
  have third := Fields.Encodes.defaulted
    (Reader.list_roundTrips TransactionBatch.reader_roundTrips)
    (Reader.list_restores_nil _ positive) readTransactions
  exact (((first.map _).seq second).seq third).restores _ (by simp)

end VolBacktest
