import Mathlib.Logic.Equiv.Fin.Rotate
import VolBacktest.Backtest.Result
import VolBacktest.Proofs.SortedMap

/-!
# Series of a measure

The engine reports the points of a measure in no particular order, and may report a date more than once. The
series of a measure indexes them: its dates increase as days of the calendar, and under a date is the value
of the last of its points. Points of different dates do not meet, so they may be reported in any order; only
among the points of one date the order counts.
-/

namespace VolBacktest

/-- Of the points on the date this is the last. -/
def LastOn (points : List MeasurePoint) (date : Date) (point : MeasurePoint) : Prop :=
  ∃ before after, points = before ++ point :: after ∧ point.date = date ∧
    ∀ later ∈ after, later.date ≠ date

/-- The dates of the points in calendar order, each with the value of its last point. -/
structure Indexes (series : SortedMap Date Binary64) (points : List MeasurePoint) : Prop where
  ordered : series.keys.Pairwise Date.Before
  dates : ∀ date, date ∈ series.keys ↔ ∃ point ∈ points, point.date = date
  values : ∀ date value, series.get? date = some value ↔
    ∃ point, LastOn points date point ∧ point.value = value

/-- The points at other places, where the points of one date have kept their order. -/
def Reordered (points others : List MeasurePoint) : Prop :=
  ∃ place : Fin points.length ≃ Fin others.length,
    (∀ index, others.get (place index) = points.get index) ∧
      ∀ first second, first < second → (points.get first).date = (points.get second).date →
        place first < place second

namespace MeasurePoint

def entry (point : MeasurePoint) : Date × Binary64 := (point.date, point.value)

/-- The series of the points. -/
def series (points : List MeasurePoint) : SortedMap Date Binary64 :=
  .ofList (points.map entry)

theorem indexes_series (points : List MeasurePoint) : Indexes (series points) points where
  ordered := (series points).sorted_keys
  dates date := by
    rw [series, SortedMap.mem_keys_ofList_iff]
    simp [entry]
  values date value := by
    rw [series, SortedMap.get?_ofList, ← List.map_reverse, List.findSome?_map,
      findSome?_reverse_eq_some_iff]
    simp only [Function.comp_apply, SortedMap.valueFor_eq_some_iff, SortedMap.valueFor_eq_none_iff]
    constructor
    · rintro ⟨before, point, after, split, ⟨onDate, isValue⟩, last⟩
      exact ⟨point, ⟨before, after, split, onDate, last⟩, isValue⟩
    · rintro ⟨point, ⟨before, after, split, onDate, last⟩, isValue⟩
      exact ⟨before, point, after, split, ⟨onDate, isValue⟩, last⟩

end MeasurePoint

/-- Where points of the date stand. -/
def placesOn (points : List MeasurePoint) (date : Date) : List (Fin points.length) :=
  (List.finRange points.length).filter fun index => (points.get index).date = date

theorem mem_placesOn_iff {points : List MeasurePoint} {date : Date} {index : Fin points.length} :
    index ∈ placesOn points date ↔ (points.get index).date = date := by
  simp [placesOn]

theorem placesOn_increasing (points : List MeasurePoint) (date : Date) :
    (placesOn points date).Pairwise (· < ·) :=
  (List.pairwise_lt_finRange points.length).filter _

/-- The points of a date are those at its places, in the order of the places. -/
theorem filter_eq_placesOn (points : List MeasurePoint) (date : Date) :
    points.filter (·.date = date) = (placesOn points date).map points.get := by
  conv_lhs => rw [← List.map_get_finRange points]
  rw [List.filter_map]
  rfl

/-- The places of a date are moved to its places, and in their order. -/
theorem map_placesOn {points others : List MeasurePoint}
    {place : Fin points.length ≃ Fin others.length}
    (moved : ∀ index, others.get (place index) = points.get index)
    (kept : ∀ first second, first < second → (points.get first).date = (points.get second).date →
      place first < place second) (date : Date) :
    (placesOn points date).map place = placesOn others date := by
  have increasing : ((placesOn points date).map place).Pairwise (· < ·) := by
    refine List.pairwise_map.mpr ((placesOn_increasing points date).imp_of_mem ?_)
    intro first second atFirst atSecond before
    exact kept first second before
      ((mem_placesOn_iff.mp atFirst).trans (mem_placesOn_iff.mp atSecond).symm)
  refine List.Perm.eq_of_pairwise (fun _ _ _ _ less greater => absurd less greater.asymm) increasing
    (placesOn_increasing others date) ?_
  refine (List.perm_ext_iff_of_nodup increasing.nodup
    (placesOn_increasing others date).nodup).mpr fun index => ?_
  rw [List.mem_map, mem_placesOn_iff]
  constructor
  · rintro ⟨origin, onDate, rfl⟩
    rw [moved]
    exact mem_placesOn_iff.mp onDate
  · intro onDate
    refine ⟨place.symm index, ?_, place.apply_symm_apply index⟩
    rwa [mem_placesOn_iff, ← moved, place.apply_symm_apply]

theorem Reordered.filter_eq {points others : List MeasurePoint} (reordered : Reordered points others)
    (date : Date) : points.filter (·.date = date) = others.filter (·.date = date) := by
  obtain ⟨place, moved, kept⟩ := reordered
  calc points.filter (·.date = date) = (placesOn points date).map points.get :=
        filter_eq_placesOn points date
    _ = (placesOn points date).map (others.get ∘ place) :=
        List.map_congr_left fun index _ => (moved index).symm
    _ = ((placesOn points date).map place).map others.get := List.map_map.symm
    _ = (placesOn others date).map others.get := by rw [map_placesOn moved kept]
    _ = others.filter (·.date = date) := (filter_eq_placesOn others date).symm

theorem Reordered.series_eq {points others : List MeasurePoint} (reordered : Reordered points others) :
    MeasurePoint.series points = MeasurePoint.series others := by
  refine SortedMap.ofList_congr fun date => ?_
  rw [List.filter_map, List.filter_map]
  exact congrArg (List.map MeasurePoint.entry) (reordered.filter_eq date)

namespace BacktestResult

theorem series_eq (result : BacktestResult) (name : String) :
    result.series name = (result.risks.get? name).map MeasurePoint.series := rfl

/-- A measure has a series exactly if it has been reported. The series indexes the points of the measure by
date, and is the same for the points in any order that keeps the points of each date in their order. The
numbers of a result are finite. -/
theorem series_indexes (result : BacktestResult) (name : String) :
    (result.series name = none ↔ name ∉ result.risks.keys) ∧
      (∀ points, result.risks.get? name = some points →
        (∃ series, result.series name = some series ∧ Indexes series points) ∧
          ∀ (other : BacktestResult) (otherName : String) (others : List MeasurePoint),
            other.risks.get? otherName = some others → Reordered points others →
              other.series otherName = result.series name) ∧
      ∀ measure : Measure, result.measureSeries measure = result.series measure.name := by
  refine ⟨?reported, fun points found => ⟨?indexed, ?reordered⟩, fun measure => rfl⟩
  case reported =>
    rw [series_eq, Option.map_eq_none_iff, SortedMap.mem_keys_iff, ← Option.isSome_iff_exists,
      Option.not_isSome_iff_eq_none]
  case indexed =>
    rw [series_eq, found]
    exact ⟨_, rfl, MeasurePoint.indexes_series points⟩
  case reordered =>
    intro other otherName others otherFound reordered
    rw [series_eq, series_eq, found, otherFound, Option.map_some, Option.map_some,
      reordered.series_eq]

/-- Points from before the common era to beyond its year 9999, and two of one date. -/
def scatteredPoints : List MeasurePoint :=
  [⟨⟨10000, 1, 1, by decide⟩, .zero⟩, ⟨⟨2021, 1, 4, by decide⟩, .zero⟩,
    ⟨⟨-44, 3, 15, by decide⟩, .zero⟩, ⟨⟨2021, 1, 4, by decide⟩, .signedZero true⟩]

def reporting (points : List MeasurePoint) : BacktestResult :=
  { empty with risks := .ofList [(Measure.pnl.name, points)] }

/-- The first point may move behind the others, none of which has its date. -/
theorem scattered_series :
    (∃ series, (reporting scatteredPoints).measureSeries .pnl = some series ∧
      Indexes series scatteredPoints) ∧
    (reporting (scatteredPoints.rotate 1)).measureSeries .pnl =
      (reporting scatteredPoints).measureSeries .pnl := by
  obtain ⟨-, whenFound, byName⟩ := (reporting scatteredPoints).series_indexes Measure.pnl.name
  obtain ⟨indexed, unmoved⟩ := whenFound scatteredPoints rfl
  refine ⟨by rwa [byName], ?_⟩
  refine unmoved (reporting (scatteredPoints.rotate 1)) _ (scatteredPoints.rotate 1) rfl ?_
  exact ⟨(finRotate 4).symm, by decide, by decide⟩

/-- In the order of their texts the year 10000 would come first. -/
example : ((reporting scatteredPoints).series "PNL").map (fun series => series.keys.map Date.year) =
    some [-44, 2021, 10000] := by
  decide

end BacktestResult

end VolBacktest
